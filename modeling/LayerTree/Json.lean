import LayerTree.Scalar

/-!
The data that descriptors are written in: numbers, texts, lists and records of named fields.
-/

set_option autoImplicit false
set_option relaxedAutoImplicit false

namespace LayerTree.Json

/-- A number as written: an integer of at most 64 bits, or a finite float. -/
inductive Number where
  | integer (n : Int)
  | double (x : Float)
  deriving DecidableEq

namespace Number

def value {α : Type} [Scalar α] : Number → α
  | .integer n => (n : α)
  | .double x => Scalar.ofFloat x

end Number

/-- A datum. The fields of a record have distinct names. -/
inductive Value where
  | null
  | bool (b : Bool)
  | number (n : Number)
  | text (s : String)
  | list (items : List Value)
  | record (fields : List (String × Value))
  deriving Inhabited

namespace Value

def number? {α : Type} [Scalar α] : Value → Option α
  | .number n => some n.value
  | _ => none

def text? : Value → Option String
  | .text s => some s
  | _ => none

def bool? : Value → Option Bool
  | .bool b => some b
  | _ => none

def list? : Value → Option (List Value)
  | .list items => some items
  | _ => none

def isRecord : Value → Bool
  | .record _ => true
  | _ => false

mutual

/-- Whether two data are the same. -/
def same : Value → Value → Bool
  | .null, .null => true
  | .bool a, .bool b => a == b
  | .number m, .number n => decide (m = n)
  | .text s, .text t => s == t
  | .list vs, .list ws => sameItems vs ws
  | .record fs, .record gs => sameFields fs gs
  | _, _ => false

def sameItems : List Value → List Value → Bool
  | [], [] => true
  | v :: vs, w :: ws => same v w && sameItems vs ws
  | _, _ => false

def sameFields : List (String × Value) → List (String × Value) → Bool
  | [], [] => true
  | (name, v) :: fs, (other, w) :: gs => name == other && same v w && sameFields fs gs
  | _, _ => false

end

mutual

theorem same_iff : ∀ v w : Value, same v w = true ↔ v = w
  | .null, w => by cases w <;> simp [same]
  | .bool _, w => by cases w <;> simp [same]
  | .number _, w => by cases w <;> simp [same]
  | .text _, w => by cases w <;> simp [same]
  | .list vs, w => by cases w <;> simp [same, sameItems_iff vs]
  | .record fs, w => by cases w <;> simp [same, sameFields_iff fs]

theorem sameItems_iff : ∀ vs ws : List Value, sameItems vs ws = true ↔ vs = ws
  | [], ws => by cases ws <;> simp [sameItems]
  | v :: vs, ws => by cases ws <;> simp [sameItems, same_iff v, sameItems_iff vs]

theorem sameFields_iff : ∀ fs gs : List (String × Value), sameFields fs gs = true ↔ fs = gs
  | [], [] => by simp [sameFields]
  | [], _ :: _ => by simp [sameFields]
  | _ :: _, [] => by simp [sameFields]
  | (_, v) :: fs, _ :: gs => by
    simp [sameFields, same_iff v, sameFields_iff fs gs, Prod.ext_iff, and_assoc]

end

instance : DecidableEq Value := fun _ _ => decidable_of_iff _ (same_iff _ _)

end Value

end LayerTree.Json
