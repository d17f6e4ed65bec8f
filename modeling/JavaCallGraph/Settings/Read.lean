import JavaCallGraph.Error
import JavaCallGraph.Json.Reader
import JavaCallGraph.Settings.Basic
import JavaCallGraph.Text.Blank

/-!
Settings from environment variables, from JSON and from a file.
-/

namespace JavaCallGraph

/-! ### Environment variables -/

/-- A word without the blanks around it, in small letters. -/
def settingWord (raw : String) : String :=
  String.ofList ((Text.trim raw).toList.map Char.toLower)

def ZeroTargets.ofWord? (raw : String) : Option ZeroTargets :=
  let word := settingWord raw
  if word = "discard" ∨ word = "drop" then some .discard
  else if word = "strict" ∨ word = "error" then some .strict
  else none

/-- Words that turn a switch off. -/
def offWords : List String := ["0", "false", "no", "off"]

/-- A switch that is on unless a word turns it off. -/
def switchedOn (raw : String) : Bool := !offWords.contains (settingWord raw)

namespace Settings

def zeroTargetsVariable : String := "SLICER_ZERO_TARGETS"

def fieldInitializersVariable : String := "SLICER_FIELD_INIT_ATTRIBUTION"

/-- Settings from variables; an unknown word for the zero-target choice is ignored. -/
def ofEnvironment (lookup : String → Option String) : Settings where
  zeroTargets := ((lookup zeroTargetsVariable).bind ZeroTargets.ofWord?).getD .discard
  fieldInitializersToConstructors := ((lookup fieldInitializersVariable).map switchedOn).getD true

end Settings

/-! ### JSON -/

def ZeroTargets.ofName? : String → Option ZeroTargets
  | "discard" => some .discard
  | "strict" => some .strict
  | _ => none

/-- A choice is its name, or an object with its name and `null`. -/
def ZeroTargets.ofJson? : Json → Option ZeroTargets
  | .string name => (JsonPiece.text? name).bind ofName?
  | .object [(name, .null)] => (JsonPiece.text? name).bind ofName?
  | _ => none

def Json.bool? : Json → Option Bool
  | .bool b => some b
  | _ => none

namespace Settings

/-- The value of a member that may be missing but not repeated. -/
def member {α : Type} (name : String) (ofJson? : Json → Option α) (default : α)
    (members : List (String × Json)) : Option α :=
  match members.filter (·.1 == name) with
  | [] => some default
  | [(_, v)] => ofJson? v
  | _ => none

def ofMembers? (members : List (String × Json)) : Option Settings := do
  return {
    zeroTargets := ← member "zero_target_policy" ZeroTargets.ofJson? .discard members
    fieldInitializersToConstructors :=
      ← member "field_initializers_to_constructors" Json.bool? true members }

/-- An object with either member, or an array of up to two values in their order. -/
def ofJson? : Json → Option Settings
  | .object members => do
    ofMembers? (← members.mapM fun (key, v) => (JsonPiece.text? key).map (·, v))
  | .array [] => some {}
  | .array [choice] => do return { zeroTargets := ← ZeroTargets.ofJson? choice }
  | .array [choice, flag] => do
    return {
      zeroTargets := ← ZeroTargets.ofJson? choice
      fieldInitializersToConstructors := ← flag.bool? }
  | _ => none

def ofText (text : String) : Except Error Settings :=
  match (Json.read text).bind ofJson? with
  | some s => .ok s
  | none => .error .json

end Settings

/-! ### Files -/

/-- Why the text of a file cannot be read. -/
inductive ReadFailure where
  | notFound
  | invalidText
  deriving DecidableEq, Repr

def ReadFailure.message : ReadFailure → String
  | notFound => "No such file or directory (os error 2)"
  | invalidText => "stream did not contain valid UTF-8"

/-- The text of a file, by the bytes found at its path. -/
def readText : Option ByteArray → Except ReadFailure String
  | none => .error .notFound
  | some bytes =>
    match String.fromUTF8? bytes with
    | some text => .ok text
    | none => .error .invalidText

/-- Settings from the bytes found at a path. -/
def Settings.ofFile (path : String) (content : Option ByteArray) : Except Error Settings :=
  match readText content with
  | .ok text => ofText text
  | .error failure => .error (.config ("Cannot read " ++ path ++ ": " ++ failure.message))

end JavaCallGraph
