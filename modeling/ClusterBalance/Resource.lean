import ClusterBalance.Text.Blank
import ClusterBalance.Text.Upper

/-! The resources that a broker uses, their names, and a value for each of them. -/

namespace ClusterBalance

/-- What a broker consumes capacity of. -/
inductive Resource where
  | cpu
  | networkIn
  | networkOut
  | disk
  deriving DecidableEq, Repr

namespace Resource

/-- The resources, in the order of every table and check. -/
def all : List Resource := [cpu, networkIn, networkOut, disk]

/-- The name in snapshots and reports. -/
def wireName : Resource → String
  | cpu => "cpu"
  | networkIn => "networkInbound"
  | networkOut => "networkOutbound"
  | disk => "disk"

/-- The symbolic name, in capitals. -/
def symbol : Resource → String
  | cpu => "CPU"
  | networkIn => "NW_IN"
  | networkOut => "NW_OUT"
  | disk => "DISK"

/-- The brokers of a host share its host resources; the disk belongs to a broker alone. -/
def isShared : Resource → Bool
  | disk => false
  | _ => true

/-- The short names, in small letters. -/
def aliases : List (String × Resource) :=
  [("nw_in", networkIn), ("network_in", networkIn),
    ("nw_out", networkOut), ("network_out", networkOut)]

/-- The resource that a name stands for: its wire name, its symbol in any case, or an alias in any
case, with white space around it. -/
def ofName? (name : String) : Option Resource :=
  let key := Text.strip name
  let capitals := Text.upper key
  (all.find? fun r => key = r.wireName ∨ capitals = r.symbol).or
    (aliases.lookup (Text.asciiLower key))

theorem mem_all (r : Resource) : r ∈ all := by cases r <;> decide

end Resource

/-- One value for each resource. -/
structure PerResource (β : Type) where
  cpu : β
  networkIn : β
  networkOut : β
  disk : β
  deriving BEq, DecidableEq, Repr

namespace PerResource

variable {β γ : Type}

/-- The value of a resource. -/
def get (v : PerResource β) : Resource → β
  | .cpu => v.cpu
  | .networkIn => v.networkIn
  | .networkOut => v.networkOut
  | .disk => v.disk

/-- The values of a function on resources. -/
def ofFn (f : Resource → β) : PerResource β :=
  ⟨f .cpu, f .networkIn, f .networkOut, f .disk⟩

/-- The same value for every resource. -/
def replicate (x : β) : PerResource β := ofFn fun _ => x

/-- Changes the value of one resource. -/
def set (v : PerResource β) (r : Resource) (x : β) : PerResource β :=
  ofFn fun s => if s = r then x else v.get s

/-- Applies a function to each value. -/
def map (f : β → γ) (v : PerResource β) : PerResource γ := ofFn fun r => f (v.get r)

/-- The values in the order of the resources. -/
def toList (v : PerResource β) : List β := Resource.all.map v.get

/-- The values with the wire names of their resources, in order. -/
def toFields (v : PerResource β) : List (String × β) :=
  Resource.all.map fun r => (r.wireName, v.get r)

/-- The values of a function that may fail, asked for in the order of the resources. -/
def ofFnM {m : Type → Type} [Monad m] (f : Resource → m β) : m (PerResource β) := do
  return ⟨← f .cpu, ← f .networkIn, ← f .networkOut, ← f .disk⟩

@[simp] theorem get_ofFn (f : Resource → β) (r : Resource) : (ofFn f).get r = f r := by
  cases r <;> rfl

@[simp] theorem get_map (f : β → γ) (v : PerResource β) (r : Resource) :
    (v.map f).get r = f (v.get r) := by simp [map]

theorem get_set (v : PerResource β) (r s : Resource) (x : β) :
    (v.set r x).get s = if s = r then x else v.get s := by simp [set]

theorem ext_get {v w : PerResource β} (h : ∀ r, v.get r = w.get r) : v = w := by
  cases v; cases w
  exact PerResource.mk.injEq .. ▸ ⟨h .cpu, h .networkIn, h .networkOut, h .disk⟩

/-- Values that may fail are all there exactly if none of them fails. -/
theorem ofFnM_eq_ok_iff {ε : Type} {f : Resource → Except ε β} {v : PerResource β} :
    ofFnM f = .ok v ↔ ∀ r, f r = .ok (v.get r) := by
  constructor
  · intro h
    simp only [ofFnM, bind, Except.bind] at h
    cases hc : f .cpu <;> rw [hc] at h <;> try contradiction
    cases hi : f .networkIn <;> rw [hi] at h <;> try contradiction
    cases ho : f .networkOut <;> rw [ho] at h <;> try contradiction
    cases hd : f .disk <;> rw [hd] at h <;> try contradiction
    cases h
    intro r
    cases r <;> assumption
  · intro h
    simp only [ofFnM, h]
    rfl

end PerResource

end ClusterBalance
