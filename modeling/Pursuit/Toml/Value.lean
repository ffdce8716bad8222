/-!
Values of a settings document. A table keeps its keys in order and each once. Dates and times are
read, but no setting holds one, so nothing is kept of them.
-/
namespace Pursuit.Toml

inductive Value where
  | flag (b : Bool)
  | integer (n : Int)
  | float (x : Float)
  | text (s : String)
  | moment
  | list (items : List Value)
  | table (entries : List (String × Value))

instance : Inhabited Value := ⟨.table []⟩

def lookup (entries : List (String × Value)) (key : String) : Option Value :=
  (entries.find? (·.1 == key)).map (·.2)

end Pursuit.Toml
