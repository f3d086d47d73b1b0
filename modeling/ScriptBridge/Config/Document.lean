import ScriptBridge.Config.Basic
import ScriptBridge.Json.Skip

/-!
# Configuration documents

A configuration is written as a JSON object or as a JSON array. An object names the settings it
changes, in any order and at most once each; keys that are no settings are passed over with their
values. An array gives the settings in their order and may break off early. What a document does
not mention keeps its default. The first fault met while reading from left to right is reported.
-/

namespace ScriptBridge.Config

open Json Reader

/-- The settings, in the order of an array document. -/
inductive Field where
  | memoryLimit
  | gcThreshold
  | maxStackSize
  | defaultFileName
  | strict
  deriving DecidableEq, Repr

namespace Field

def all : List Field := [.memoryLimit, .gcThreshold, .maxStackSize, .defaultFileName, .strict]

/-- The key of a setting. -/
def key : Field → String
  | .memoryLimit => "memory_limit"
  | .gcThreshold => "gc_threshold"
  | .maxStackSize => "max_stack_size"
  | .defaultFileName => "default_file_name"
  | .strict => "strict"

/-- The setting with a key. -/
def ofKey? (key : String) : Option Field := all.find? (·.key == key)

@[simp] theorem ofKey?_key (f : Field) : ofKey? f.key = some f := by
  cases f <;> decide

end Field

/-- A value for one of the settings. -/
inductive Setting where
  | memoryLimit (bytes : Nat)
  | gcThreshold (bytes : Nat)
  | maxStackSize (bytes : Nat)
  | defaultFileName (name : String)
  | strict (on : Bool)
  deriving DecidableEq, Repr

/-- The setting that a value is for. -/
def Setting.field : Setting → Field
  | .memoryLimit _ => .memoryLimit
  | .gcThreshold _ => .gcThreshold
  | .maxStackSize _ => .maxStackSize
  | .defaultFileName _ => .defaultFileName
  | .strict _ => .strict

/-- Replaces one setting. -/
def apply (config : Config) : Setting → Config
  | .memoryLimit n => { config with memoryLimit := n }
  | .gcThreshold n => { config with gcThreshold := n }
  | .maxStackSize n => { config with maxStackSize := n }
  | .defaultFileName s => { config with defaultFileName := s }
  | .strict b => { config with strict := b }

/-- Replaces several settings, one after the other. -/
def applyAll (config : Config) (settings : List Setting) : Config := settings.foldl apply config

namespace Document

/-- Where a document was refused, and why. -/
structure Refusal where
  cause : Cause
  position : Position
  deriving DecidableEq

/-- The wording of a refusal. -/
def Refusal.message (r : Refusal) : String :=
  r.cause.message ++ " at line " ++ toString r.position.line ++ " column " ++
    toString r.position.column

/-- Refuses what comes next because another type is expected. Values without brackets are read to
their end first. -/
def refuseType {α : Type} (expected : String) : Reader α := do
  match ← peek with
  | some 'n' => do advance; word ['u', 'l', 'l']; fail (.wrongType .null expected)
  | some 't' => do advance; word ['r', 'u', 'e']; fail (.wrongType (.bool true) expected)
  | some 'f' => do advance; word ['a', 'l', 's', 'e']; fail (.wrongType (.bool false) expected)
  | some '-' => do advance; let n ← numeral false; fail (.wrongType n.found expected)
  | some '"' => do let s ← string; fail (.wrongType (.string s) expected)
  | some '[' => fail (.wrongType .sequence expected)
  | some '{' => fail (.wrongType .map expected)
  | some c =>
    if isDigit c then do let n ← numeral true; fail (.wrongType n.found expected)
    else failNext .expectedValue
  | none => failNext .expectedValue

/-- What a size is called in a message. -/
def sizeName : String := "usize"

/-- Accepts a numeral as a size. -/
def sizeOf : Numeral → Reader Nat
  | .natural n => pure n
  | .negative n => fail (.wrongValue (Numeral.negative n).found sizeName)
  | .float x => fail (.wrongType (.float x) sizeName)

/-- Reads a size. -/
def readSize : Reader Nat := do
  match ← peekPastBlanks with
  | none => failNext .endInValue
  | some '-' => do advance; let n ← numeral false; sizeOf n
  | some c => if isDigit c then do let n ← numeral true; sizeOf n else refuseType sizeName

/-- Reads a truth value. -/
def readBool : Reader Bool := do
  match ← peekPastBlanks with
  | none => failNext .endInValue
  | some 't' => do advance; word ['r', 'u', 'e']; pure true
  | some 'f' => do advance; word ['a', 'l', 's', 'e']; pure false
  | some _ => refuseType "a boolean"

/-- Reads a string. -/
def readText : Reader String := do
  match ← peekPastBlanks with
  | none => failNext .endInValue
  | some '"' => string
  | some _ => refuseType "a string"

/-- Reads the value of a setting. -/
def readSetting : Field → Reader Setting
  | .memoryLimit => .memoryLimit <$> readSize
  | .gcThreshold => .gcThreshold <$> readSize
  | .maxStackSize => .maxStackSize <$> readSize
  | .defaultFileName => .defaultFileName <$> readText
  | .strict => .strict <$> readBool

/-- Passes over the colon between a key and its value. -/
def readColon : Reader Unit := do
  match ← peekPastBlanks with
  | some ':' => advance
  | some _ => failNext .expectedColon
  | none => failNext .endInObject

/-- Whether another key follows inside an object; `first` is true right behind the brace. -/
def hasKey (first : Bool) : Reader Bool := do
  match ← peekPastBlanks with
  | none => failNext .endInObject
  | some '}' => pure false
  | some c =>
    if first then if c = '"' then pure true else failNext .keyNotString
    else if c = ',' then do
      advance
      match ← peekPastBlanks with
      | some '"' => pure true
      | some '}' => failNext .trailingComma
      | some _ => failNext .keyNotString
      | none => failNext .endInValue
    else failNext .expectedObjectEnd

/-- Refuses the key that was just read because it occurred before. The reading goes on to the next
byte that is not blank, and over it if it closes the object. -/
def refuseDuplicate (field : Field) : Reader (List Setting) := do
  match ← peekPastBlanks with
  | some '}' => do advance; fail (.duplicateField field.key)
  | _ => fail (.duplicateField field.key)

/-- Reads the settings of an object behind its opening brace, up to the closing one. The fuel
bounds the number of characters left. -/
def readFields : Nat → Bool → List Setting → Reader (List Setting)
  | 0, _, _ => failNext .endInObject
  | fuel + 1, first, settings => do
    if ← hasKey first then
      let key ← string
      match Field.ofKey? key with
      | none => do
        readColon
        ignoreValue
        readFields fuel false settings
      | some field =>
        if settings.any (·.field == field) then refuseDuplicate field
        else do
          readColon
          let setting ← readSetting field
          readFields fuel false (settings ++ [setting])
    else pure settings

/-- Whether another element follows inside an array; `first` is true right behind the bracket. -/
def hasElement (first : Bool) : Reader Bool := do
  match ← peekPastBlanks with
  | none => failNext .endInList
  | some ']' => pure false
  | some c =>
    if first then pure true
    else if c = ',' then do
      advance
      match ← peekPastBlanks with
      | some ']' => failNext .trailingComma
      | some _ => pure true
      | none => failNext .endInValue
    else failNext .expectedListEnd

/-- Reads the elements of an array behind its opening bracket, each for the next setting. -/
def readElements : List Field → Bool → List Setting → Reader (List Setting)
  | [], _, settings => pure settings
  | field :: rest, first, settings => do
    if ← hasElement first then
      let setting ← readSetting field
      readElements rest false (settings ++ [setting])
    else pure settings

/-- The end of an array. -/
def closeList : Reader Unit := do
  match ← peekPastBlanks with
  | some ']' => advance
  | some ',' => do
    advance
    match ← peekPastBlanks with
    | some ']' => failNext .trailingComma
    | _ => failNext .trailingCharacters
  | some _ => failNext .trailingCharacters
  | none => failNext .endInList

/-- The end of an object, whose closing brace comes next. -/
def closeObject : Reader Unit := do
  match ← peekPastBlanks with
  | some '}' => advance
  | some ',' => failNext .trailingComma
  | some _ => failNext .trailingCharacters
  | none => failNext .endInObject

/-- Reads a whole document. -/
def readDocument : Reader (List Setting) := do
  match ← peekPastBlanks with
  | none => failNext .endInValue
  | some '[' => do
    advance
    let settings ← readElements Field.all true []
    closeList
    finish settings
  | some '{' => do
    advance
    let s ← get
    let settings ← readFields (s.length + 1) true []
    closeObject
    finish settings
  | some _ => refuseType "struct EngineConfig"
where
  /-- Nothing but blanks may follow. -/
  finish (settings : List Setting) : Reader (List Setting) := do
    match ← peekPastBlanks with
    | none => pure settings
    | some _ => failNext .trailingCharacters

end Document

/-- The settings of a document, applied to the default configuration. -/
def ofJson (text : String) : Except Document.Refusal Config :=
  match Document.readDocument text.toList with
  | .ok (settings, _) => .ok (Config.default.applyAll settings)
  | .error fault => .error ⟨fault.cause, fault.position text.toList⟩

end ScriptBridge.Config
