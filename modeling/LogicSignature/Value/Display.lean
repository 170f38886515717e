import LogicSignature.Data.Display

/-
The one-line display of a document value in messages and plain output.
-/

namespace LogicSignature.Value

def inner (value : Value) : Text := (Data.ofValue value).inner

def display (value : Value) : Text := (Data.ofValue value).display

end LogicSignature.Value
