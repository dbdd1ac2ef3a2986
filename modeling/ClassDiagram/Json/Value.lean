import ClassDiagram.Number.Decimal
set_option autoImplicit false

namespace ClassDiagram

inductive Json where
  | null
  | bool (value : Bool)
  | whole (value : Nat)
  | double (value : Double)
  | text (value : String)
  | list (items : List Json)
  | object (members : List (String × Json))

namespace Json

instance : Inhabited Json := ⟨.null⟩

def ofOption : Option String → Json
  | none => .null
  | some value => .text value

def texts (values : List String) : Json := .list (values.map .text)

mutual

/-- Whether no object in the value has two members of one name. -/
def KeysDistinct : Json → Prop
  | .list items => KeysDistinctItems items
  | .object members => (members.map Prod.fst).Nodup ∧ KeysDistinctMembers members
  | _ => True

def KeysDistinctItems : List Json → Prop
  | [] => True
  | item :: rest => KeysDistinct item ∧ KeysDistinctItems rest

def KeysDistinctMembers : List (String × Json) → Prop
  | [] => True
  | member :: rest => KeysDistinct member.2 ∧ KeysDistinctMembers rest

end

end Json
end ClassDiagram
