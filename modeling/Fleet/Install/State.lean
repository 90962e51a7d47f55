/-!
# States of an installation

An installation moves upwards through its states.  The last three are final; of these only
`completed` means that the server can be used.
-/

namespace Fleet

/-- How far an installation has come. -/
inductive InstallState where
  | unknown
  | instanceCreated
  | ipAllocated
  | instanceRunning
  | certificateCreated
  | completed
  | failed
  | canceled
deriving DecidableEq, Repr, Inhabited

namespace InstallState

/-- All states in their order. -/
def all : List InstallState :=
  [.unknown, .instanceCreated, .ipAllocated, .instanceRunning, .certificateCreated, .completed,
    .failed, .canceled]

/-- The place of a state in the order. -/
def rank : InstallState → Nat
  | .unknown => 0
  | .instanceCreated => 1
  | .ipAllocated => 2
  | .instanceRunning => 3
  | .certificateCreated => 4
  | .completed => 5
  | .failed => 6
  | .canceled => 7

instance : LT InstallState := ⟨fun a b => a.rank < b.rank⟩

instance : LE InstallState := ⟨fun a b => a.rank ≤ b.rank⟩

instance (a b : InstallState) : Decidable (a < b) :=
  inferInstanceAs (Decidable (a.rank < b.rank))

instance (a b : InstallState) : Decidable (a ≤ b) :=
  inferInstanceAs (Decidable (a.rank ≤ b.rank))

/-- The name of a state. -/
def name : InstallState → String
  | .unknown => "UNKNOWN"
  | .instanceCreated => "INSTANCE_CREATED"
  | .ipAllocated => "IP_ALLOCATED"
  | .instanceRunning => "INSTANCE_RUNNING"
  | .certificateCreated => "CERTIFICATE_CREATED"
  | .completed => "COMPLETED"
  | .failed => "FAILED"
  | .canceled => "CANCELED"

/-- The state of the given name. -/
def ofName? (name : String) : Option InstallState :=
  all.find? (·.name == name)

/-- The state at the given place of the order. -/
def ofRank? (rank : Int) : Option InstallState :=
  all.find? fun state => (state.rank : Int) == rank

/-- Whether an installation stays in this state. -/
def isFinal : InstallState → Bool
  | .completed | .failed | .canceled => true
  | _ => false

/-- The completed part of an installation in hundredths. -/
def percent : InstallState → Nat
  | .unknown => 1
  | .instanceCreated => 12
  | .ipAllocated => 14
  | .instanceRunning => 40
  | .certificateCreated => 70
  | .completed => 100
  | .failed | .canceled => 0

/-- The completed part of an installation. -/
def fraction (state : InstallState) : Float :=
  Float.ofNat state.percent / 100.0

/-- States in increasing order; equal ones keep their order. -/
def sorted (states : List InstallState) : List InstallState :=
  states.mergeSort fun a b => decide (a ≤ b)

theorem mem_all (state : InstallState) : state ∈ all := by
  cases state <;> decide

theorem rank_inj {a b : InstallState} : a.rank = b.rank ↔ a = b := by
  cases a <;> cases b <;> decide

theorem lt_iff {a b : InstallState} : a < b ↔ a.rank < b.rank := Iff.rfl

theorem le_iff {a b : InstallState} : a ≤ b ↔ a.rank ≤ b.rank := Iff.rfl

theorem ofName?_name (state : InstallState) : ofName? state.name = some state := by
  cases state <;> decide

/-- Final states come after all others. -/
theorem lt_of_isFinal {a b : InstallState} (ha : a.isFinal = false) (hb : b.isFinal = true) :
    a < b := by
  revert ha hb
  cases a <;> cases b <;> decide

end InstallState

end Fleet
