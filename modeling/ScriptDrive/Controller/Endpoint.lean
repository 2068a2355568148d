import ScriptDrive.Identity

/-!
# The endpoints of the controller

The device uses four endpoints towards the host and three from it.  Each has a number, a place in the
controller's tables of control words, and a packet buffer in the controller's memory; the two halves of
the control endpoint share one buffer.
-/

set_option autoImplicit false

namespace ScriptDrive

def boardEndpoints : EndpointMap := {}

inductive InEndpoint where
  | control
  | notify
  | console
  | disk
  deriving DecidableEq

inductive OutEndpoint where
  | control
  | console
  | disk
  deriving DecidableEq

inductive Endpoint where
  | toHost (endpoint : InEndpoint)
  | fromHost (endpoint : OutEndpoint)
  deriving DecidableEq

namespace InEndpoint

def number : InEndpoint → UInt8
  | .control => 0
  | .notify => boardEndpoints.notify
  | .console => boardEndpoints.consoleIn
  | .disk => boardEndpoints.diskIn

def ofNumber? (number : UInt8) : Option InEndpoint :=
  [control, notify, console, disk].find? fun endpoint => endpoint.number == number

theorem ofNumber?_number (endpoint : InEndpoint) : ofNumber? endpoint.number = some endpoint := by
  cases endpoint <;> decide

end InEndpoint

namespace OutEndpoint

def number : OutEndpoint → UInt8
  | .control => 0
  | .console => boardEndpoints.consoleOut
  | .disk => boardEndpoints.diskOut

end OutEndpoint

namespace Endpoint

/-- The address of an endpoint: its number, with the top bit set towards the host. -/
def address : Endpoint → UInt8
  | toHost endpoint => endpoint.number ||| 0x80
  | fromHost endpoint => endpoint.number

/-- The endpoint's place among the buffer control words and the buffer status bits: for each number the
direction to the host comes first. -/
def index : Endpoint → Nat
  | toHost endpoint => 2 * endpoint.number.toNat
  | fromHost endpoint => 2 * endpoint.number.toNat + 1

def all : List Endpoint :=
  [toHost .control, fromHost .control, toHost .notify, fromHost .console, toHost .console,
    toHost .disk, fromHost .disk]

def bulk : List Endpoint :=
  [toHost .notify, fromHost .console, toHost .console, toHost .disk, fromHost .disk]

def ofIndex? (index : Nat) : Option Endpoint :=
  all.find? fun endpoint => endpoint.index == index

def bufferOffset : Endpoint → Nat
  | toHost .control => 0x100
  | fromHost .control => 0x100
  | toHost .notify => 0x180
  | fromHost .console => 0x1C0
  | toHost .console => 0x200
  | toHost .disk => 0x240
  | fromHost .disk => 0x280

def transferType : Endpoint → UInt8
  | toHost .control | fromHost .control => 0
  | toHost .notify => 3
  | fromHost .console | toHost .console | toHost .disk | fromHost .disk => 2

theorem ofIndex?_index (endpoint : Endpoint) : ofIndex? endpoint.index = some endpoint := by
  cases endpoint with
  | toHost endpoint => cases endpoint <;> decide
  | fromHost endpoint => cases endpoint <;> decide

theorem index_of_ofIndex? {index : Nat} {endpoint : Endpoint}
    (found : ofIndex? index = some endpoint) : endpoint.index = index := by
  have matching := List.find?_some found
  simpa using matching

end Endpoint

end ScriptDrive
