import ScriptDrive.Exchange

/-!
# What an exchange is certain to do

`work.Meets link post` says that `work`, started with `link`, does not halt, and that what it comes to,
the link it leaves and the events it adds satisfy `post`.  The rules of this module follow the shape of
an exchange, so a statement about a function of the device is proved by following its lines.

`work.Halts link fault` says that it halts.  An exchange that halts does so after work that meets what is
written of it, so `Meets.halts` is the rule that is needed most.

`work.Yields link post` leaves open whether it halts and says what comes of it if it does not.
-/

set_option autoImplicit false

namespace ScriptDrive.Exchange

variable {π α β : Type}

/-- The exchange does not halt, and how it went is as stated. -/
def Meets (work : Exchange π α) (start : π) (post : α → π → List Event → Prop) : Prop :=
  ∃ value, (work start).result = .ok value ∧ post value (work start).link (work start).events

theorem Meets.mono {work : Exchange π α} {start : π} {post weaker : α → π → List Event → Prop}
    (met : work.Meets start post)
    (weaken : ∀ value after events, post value after events → weaker value after events) :
    work.Meets start weaker := by
  obtain ⟨value, result, holds⟩ := met
  exact ⟨value, result, weaken _ _ _ holds⟩

@[simp] theorem meets_pure (value : α) (start : π) (post : α → π → List Event → Prop) :
    (pure value : Exchange π α).Meets start post ↔ post value start [] := by
  constructor
  · rintro ⟨other, result, holds⟩
    rw [pure_run] at result holds
    cases result
    exact holds
  · intro holds
    exact ⟨value, rfl, holds⟩

@[simp] theorem meets_bind (first : Exchange π α) (next : α → Exchange π β) (start : π)
    (post : β → π → List Event → Prop) :
    (first >>= next).Meets start post ↔
      first.Meets start fun value middle before =>
        (next value).Meets middle fun last after events => post last after (before ++ events) := by
  constructor
  · rintro ⟨last, result, holds⟩
    cases started : (first start).result with
    | error fault =>
      rw [bind_of_error started] at result
      cases result
    | ok value =>
      rw [bind_of_ok started] at result holds
      exact ⟨value, started, last, result, holds⟩
  · rintro ⟨value, started, last, result, holds⟩
    refine ⟨last, ?_, ?_⟩
    · rw [bind_of_ok started]
      exact result
    · rw [bind_of_ok started]
      exact holds

/-- Repacking what work came to does nothing else. -/
theorem Meets.andPure {work : Exchange π α} {start : π} {post : β → π → List Event → Prop}
    {pack : α → β} (met : work.Meets start fun value after events => post (pack value) after events) :
    (work >>= fun value => pure (pack value)).Meets start post := by
  rw [meets_bind]
  refine met.mono ?_
  intro value after events holds
  rw [meets_pure, List.append_nil]
  exact holds

@[simp] theorem meets_lift (checked : Except Fault α) (start : π)
    (post : α → π → List Event → Prop) :
    (liftM checked : Exchange π α).Meets start post ↔
      ∃ value, checked = .ok value ∧ post value start [] :=
  Iff.rfl

@[simp] theorem meets_log (entry : Note) (start : π) (post : Unit → π → List Event → Prop) :
    (log entry).Meets start post ↔ post () start [.note entry] := by
  constructor
  · rintro ⟨_, _, holds⟩
    exact holds
  · intro holds
    exact ⟨(), rfl, holds⟩

@[simp] theorem meets_logAll (entries : List Note) (start : π)
    (post : Unit → π → List Event → Prop) :
    (logAll entries).Meets start post ↔ post () start (entries.map .note) := by
  constructor
  · rintro ⟨_, _, holds⟩
    exact holds
  · intro holds
    exact ⟨(), rfl, holds⟩

@[simp] theorem meets_offer [Link π] (endpoint : UInt8) (bytes : List UInt8) (start : π)
    (post : Option Busy → π → List Event → Prop) :
    (offer endpoint bytes).Meets start post ↔
      post (Link.offer endpoint bytes start).1 (Link.offer endpoint bytes start).2
        [.offer ⟨endpoint, bytes, (Link.offer endpoint bytes start).1⟩] := by
  constructor
  · rintro ⟨refusal, result, holds⟩
    cases result
    exact holds
  · intro holds
    exact ⟨_, rfl, holds⟩

@[simp] theorem meets_link (start : π) (post : π → π → List Event → Prop) :
    link.Meets start post ↔ post start start [] := by
  constructor
  · rintro ⟨_, result, holds⟩
    cases result
    exact holds
  · intro holds
    exact ⟨start, rfl, holds⟩

@[simp] theorem meets_modifyLink (change : π → π) (start : π)
    (post : Unit → π → List Event → Prop) :
    (modifyLink change).Meets start post ↔ post () (change start) [] := by
  constructor
  · rintro ⟨_, _, holds⟩
    exact holds
  · intro holds
    exact ⟨(), rfl, holds⟩

theorem logAll_then (entries : List Note) (work : Exchange π α) (start : π) :
    (logAll entries >>= fun _ => work) start =
      ⟨(work start).result, (work start).link, entries.map .note ++ (work start).events⟩ :=
  bind_of_ok rfl

theorem log_then (entry : Note) (work : Exchange π α) :
    (log entry >>= fun _ => work) = (logAll [entry] >>= fun _ => work) := rfl

theorem logAll_logAll (entries later : List Note) (work : Exchange π α) :
    (logAll entries >>= fun _ => logAll later >>= fun _ => work) =
      logAll (entries ++ later) >>= fun _ => work := by
  funext start
  rw [logAll_then, logAll_then, logAll_then, List.map_append, List.append_assoc]

theorem lift_ok (value : α) : (liftM (.ok value : Except Fault α) : Exchange π α) = pure value := rfl

/-- What is true of the link that work leaves can be added to what it meets. -/
theorem Meets.withLink {work : Exchange π α} {start : π} {post : α → π → List Event → Prop}
    {fact : π → Prop} (met : work.Meets start post) (left : fact (work start).link) :
    work.Meets start fun value after events => post value after events ∧ fact after := by
  obtain ⟨value, result, holds⟩ := met
  exact ⟨value, result, holds, left⟩

def Halts (work : Exchange π α) (start : π) (fault : Fault) : Prop :=
  (work start).result = .error fault

theorem halts_halt (fault : Fault) (start : π) : (halt fault : Exchange π α).Halts start fault := rfl

theorem Halts.bind {first : Exchange π α} {start : π} {fault : Fault} (halted : first.Halts start fault)
    (next : α → Exchange π β) : (first >>= next).Halts start fault := by
  rw [Halts, bind_of_error halted]

theorem Meets.halts {first : Exchange π α} {next : α → Exchange π β} {start : π} {fault : Fault}
    (met : first.Meets start fun value middle _ => (next value).Halts middle fault) :
    (first >>= next).Halts start fault := by
  obtain ⟨value, result, halted⟩ := met
  rw [Halts, bind_of_ok result]
  exact halted

theorem Meets.not_halts {work : Exchange π α} {start : π} {post : α → π → List Event → Prop}
    {fault : Fault} (met : work.Meets start post) : ¬ work.Halts start fault := by
  obtain ⟨value, result, -⟩ := met
  intro halted
  rw [Halts, result] at halted
  cases halted

/-- Unless the exchange halts, it comes to a value and a link as stated. -/
def Yields (work : Exchange π α) (start : π) (post : α → π → Prop) : Prop :=
  ∀ value, (work start).result = .ok value → post value (work start).link

theorem Meets.yields {work : Exchange π α} {start : π} {post : α → π → List Event → Prop}
    {weaker : α → π → Prop} (met : work.Meets start post)
    (weaken : ∀ value after events, post value after events → weaker value after) :
    work.Yields start weaker := by
  obtain ⟨value, result, holds⟩ := met
  intro other otherResult
  rw [result] at otherResult
  cases otherResult
  exact weaken _ _ _ holds

/-- Of work that does not halt, what it yields is what it meets. -/
theorem Yields.meets {work : Exchange π α} {start : π} {post : α → π → List Event → Prop}
    {stated : α → π → Prop} (yields : work.Yields start stated) (met : work.Meets start post) :
    work.Meets start fun value after _ => stated value after := by
  obtain ⟨value, result, -⟩ := met
  exact ⟨value, result, yields value result⟩

theorem Halts.yields {work : Exchange π α} {start : π} {fault : Fault} (halted : work.Halts start fault)
    (post : α → π → Prop) : work.Yields start post := by
  intro value result
  rw [halted] at result
  cases result

theorem Yields.mono {work : Exchange π α} {start : π} {post weaker : α → π → Prop}
    (yields : work.Yields start post) (weaken : ∀ value after, post value after → weaker value after) :
    work.Yields start weaker := by
  intro value result
  exact weaken value _ (yields value result)

theorem yields_pure (value : α) (start : π) {post : α → π → Prop} (holds : post value start) :
    (pure value : Exchange π α).Yields start post := by
  intro other result
  cases result
  exact holds

/-- Work that does not halt has gone through its first part. -/
theorem of_bind_ok {first : Exchange π α} {next : α → Exchange π β} {start : π} {last : β}
    (result : ((first >>= next) start).result = .ok last) :
    ∃ value, (first start).result = .ok value ∧ (next value (first start).link).result = .ok last ∧
      ((first >>= next) start).link = (next value (first start).link).link := by
  cases started : (first start).result with
  | error fault =>
    rw [bind_of_error started] at result
    cases result
  | ok value =>
    rw [bind_of_ok started] at result ⊢
    exact ⟨value, rfl, result, rfl⟩

theorem Yields.bind {first : Exchange π α} {next : α → Exchange π β} {start : π} {post : β → π → Prop}
    (yields : first.Yields start fun value middle => (next value).Yields middle post) :
    (first >>= next).Yields start post := by
  intro last result
  obtain ⟨value, started, finished, link⟩ := of_bind_ok result
  rw [link]
  exact yields value started last finished

theorem Meets.thenYields {first : Exchange π α} {next : α → Exchange π β} {start : π} {post : β → π → Prop}
    (met : first.Meets start fun value middle _ => (next value).Yields middle post) :
    (first >>= next).Yields start post := by
  apply Yields.bind
  refine met.yields ?_
  intro value after events yields
  exact yields

end ScriptDrive.Exchange
