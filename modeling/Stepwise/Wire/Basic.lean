/-!
# The wire form

Results leave the program, and settings enter it, as trees of records, lists
and plain values. What a result is on the wire fixes its meaning for every
reader, so the encodings below are injective: nothing is lost on the way out.
-/

namespace Stepwise

/-- **A tree on the wire.** -/
inductive Wire where
  | null
  | bool (value : Bool)
  | int (value : Int)
  | double (value : Float)
  | text (value : String)
  | list (items : List Wire)
  | record (fields : List (String × Wire))
  deriving Inhabited

namespace Wire

/-- A natural number. -/
def nat (n : Nat) : Wire := .int n

/-- A value that may be missing. -/
def optional {α : Type} (encode : α → Wire) : Option α → Wire
  | none => null
  | some value => encode value

/-- The values of a list. -/
def listOf {α : Type} (encode : α → Wire) (values : List α) : Wire :=
  list (values.map encode)

/-- The field of a name. -/
def field? (fields : List (String × Wire)) (name : String) : Option Wire :=
  (fields.find? fun field => field.1 == name).map (·.2)

/-- A number as a double; an integer stands for the double nearest to it. -/
def asDouble? (ofInt : Int → Float) : Wire → Option Float
  | double value => some value
  | int value => some (ofInt value)
  | _ => none

end Wire

end Stepwise
