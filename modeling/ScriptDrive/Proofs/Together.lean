import ScriptDrive.Proofs.Drive.Endpoints

/-!
# Two exchanges side by side

`Together first second` compares two exchanges, each started with a link of its own: they halt by the same
fault, or both come to something.  What is said of the two links may differ in the two cases.  The rules
follow the shape of the exchanges, as those for `Meets` do for one.

Work that only offers packets to an endpoint needs no rule for its own shape: `Offering.together` carries any
relation between links that answer its offers alike.
-/

set_option autoImplicit false

namespace ScriptDrive.Exchange

variable {π α β γ δ : Type}

/-- Both exchanges halt by the same fault and leave links as stated, or neither halts and both go as
stated. -/
def Together (first : Exchange π α) (second : Exchange π β) (start other : π)
    (post : α → β → π → π → Prop) (halted : π → π → Prop) : Prop :=
  (∃ fault, first.Halts start fault ∧ second.Halts other fault ∧
      halted (first start).link (second other).link) ∨
    ∃ value counterpart, (first start).result = .ok value ∧ (second other).result = .ok counterpart ∧
      post value counterpart (first start).link (second other).link

variable {first : Exchange π α} {second : Exchange π β} {start other : π} {halted : π → π → Prop}

theorem Meets.together {here : α → π → List Event → Prop} {there : β → π → List Event → Prop}
    {post : α → β → π → π → Prop} (met : first.Meets start here) (counterpart : second.Meets other there)
    (both : ∀ value after events, here value after events →
      ∀ otherValue otherAfter otherEvents, there otherValue otherAfter otherEvents →
        post value otherValue after otherAfter) :
    Together first second start other post halted := by
  obtain ⟨value, result, holds⟩ := met
  obtain ⟨otherValue, otherResult, otherHolds⟩ := counterpart
  exact .inr ⟨value, otherValue, result, otherResult, both _ _ _ holds _ _ _ otherHolds⟩

theorem Together.mono {post weaker : α → β → π → π → Prop}
    (together : Together first second start other post halted)
    (weaken : ∀ value counterpart after otherAfter, post value counterpart after otherAfter →
      weaker value counterpart after otherAfter) :
    Together first second start other weaker halted := by
  rcases together with halts | ⟨value, counterpart, result, otherResult, holds⟩
  · exact .inl halts
  · exact .inr ⟨value, counterpart, result, otherResult, weaken _ _ _ _ holds⟩

theorem Together.bind {next : α → Exchange π γ} {otherNext : β → Exchange π δ}
    {post : γ → δ → π → π → Prop}
    (together : Together first second start other
      (fun value counterpart middle otherMiddle =>
        Together (next value) (otherNext counterpart) middle otherMiddle post halted) halted) :
    Together (first >>= next) (second >>= otherNext) start other post halted := by
  rcases together with ⟨fault, halts, otherHalts, links⟩ | ⟨value, counterpart, result, otherResult, later⟩
  · refine .inl ⟨fault, halts.bind next, otherHalts.bind otherNext, ?_⟩
    rw [bind_of_error halts, bind_of_error otherHalts]
    exact links
  · unfold Together Halts
    rw [bind_of_ok result, bind_of_ok otherResult]
    exact later

theorem together_pure {value : α} {counterpart : β} {post : α → β → π → π → Prop}
    (holds : post value counterpart start other) :
    Together (pure value) (pure counterpart) start other post halted :=
  .inr ⟨value, counterpart, rfl, rfl, holds⟩

theorem together_halt {fault : Fault} {post : α → β → π → π → Prop} (links : halted start other) :
    Together (halt fault) (halt fault) start other post halted :=
  .inl ⟨fault, rfl, rfl, links⟩

theorem together_modifyLink {change otherChange : π → π} {post : Unit → Unit → π → π → Prop}
    (holds : post () () (change start) (otherChange other)) :
    Together (modifyLink change) (modifyLink otherChange) start other post halted :=
  .inr ⟨(), (), rfl, rfl, holds⟩

theorem together_logAll {entries otherEntries : List Note} {post : Unit → Unit → π → π → Prop}
    (holds : post () () start other) :
    Together (logAll entries) (logAll otherEntries) start other post halted :=
  .inr ⟨(), (), rfl, rfl, holds⟩

/-- What one of them comes to can be added. -/
theorem Together.withFirst {post : α → β → π → π → Prop} {fact : α → π → Prop}
    (together : Together first second start other post halted) (yields : first.Yields start fact) :
    Together first second start other
      (fun value counterpart after otherAfter =>
        post value counterpart after otherAfter ∧ fact value after) halted := by
  rcases together with halts | ⟨value, counterpart, result, otherResult, holds⟩
  · exact .inl halts
  · exact .inr ⟨value, counterpart, result, otherResult, holds, yields value result⟩

/-- Two links that take and refuse the same offers to an endpoint, and stay related. -/
def Answers [Link π] (endpoint : UInt8) (related : π → π → Prop) : Prop :=
  ∀ start other, related start other → ∀ bytes,
    (Link.offer endpoint bytes start).1 = (Link.offer endpoint bytes other).1 ∧
      related (Link.offer endpoint bytes start).2 (Link.offer endpoint bytes other).2

theorem Offering.together [Link π] {endpoint : UInt8} {work : Exchange π α} {related : π → π → Prop}
    (offers : Offering endpoint work) (answers : Answers endpoint related)
    (enough : ∀ start other, related start other → halted start other) (alike : related start other) :
    Together work work start other
      (fun value counterpart after otherAfter => value = counterpart ∧ related after otherAfter)
      halted := by
  induction offers generalizing start other with
  | pure value => exact together_pure ⟨rfl, alike⟩
  | lift checked =>
    cases checked with
    | error fault => exact .inl ⟨fault, rfl, rfl, enough _ _ alike⟩
    | ok value => exact .inr ⟨value, value, rfl, rfl, rfl, alike⟩
  | log entry => exact .inr ⟨(), (), rfl, rfl, rfl, alike⟩
  | logAll entries => exact .inr ⟨(), (), rfl, rfl, rfl, alike⟩
  | offer bytes =>
    obtain ⟨refusal, after⟩ := answers start other alike bytes
    exact .inr ⟨_, _, rfl, rfl, refusal, after⟩
  | bind _ _ firstInduction nextInduction =>
    apply Together.bind
    refine (firstInduction alike).mono ?_
    rintro value counterpart middle otherMiddle ⟨rfl, alikeMiddle⟩
    exact nextInduction value alikeMiddle

end ScriptDrive.Exchange
