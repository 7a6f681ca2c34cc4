import DocTree.Decode.Text
import DocTree.Json.Printer

/-!
# Settings

## Main definitions

- `ValidationSettings`, `Settings`: what an engine can be told, with defaults.
- `Settings.parse`: the settings of a text, within the supported range.
-/

namespace DocTree

/-- The deepest nesting that an engine can be told to accept. -/
def maxSupportedDepth : Nat := 1024

/-- How documents are validated: how deep they may nest, and whether and for how many versions a
promoted field may still be found in `data`. -/
structure ValidationSettings where
  maxDepth : Nat := 256
  compatibilityWindow : UInt32 := 1
  acceptLegacyData : Bool := true
deriving DecidableEq, Repr

/-- The settings of an engine. -/
structure Settings where
  validation : ValidationSettings := {}
deriving DecidableEq, Repr

/-- Why settings are refused. -/
inductive SettingsError where
  | malformed (defect : TextDefect)
  | depthOutOfRange (depth : Nat)
deriving Repr

/-- The words for a refusal. -/
def SettingsError.message : SettingsError → String
  | .malformed defect => "malformed configuration: " ++ defect.message
  | .depthOutOfRange depth =>
    "max_depth must be between 1 and " ++ maxSupportedDepth.repr ++ ", got " ++ depth.repr

section decode

variable {m : Type → Type} [Format m]

open Format

/-- Reads how documents are validated. -/
def ValidationSettings.decode : m ValidationSettings :=
  record "ValidatorConfig"
    [ slot "max_depth" .allowed (natural .size) fun maxDepth settings => { settings with maxDepth },
      slot "compatibility_window" .allowed word
        fun compatibilityWindow settings => { settings with compatibilityWindow },
      slot "accept_legacy_data_fields" .allowed boolean
        fun acceptLegacyData settings => { settings with acceptLegacyData } ]
    {}

/-- Reads settings. -/
def Settings.decode : m Settings :=
  record "EngineConfig"
    [ slot "validation" .allowed ValidationSettings.decode fun validation _ => ⟨validation⟩ ]
    {}

end decode

namespace Settings

/-- The JSON form, in the order in which it is written. -/
def toJson (settings : Settings) : Json :=
  .object
    [ ("validation", .object
        [ ("max_depth", .number (.int settings.validation.maxDepth)),
          ("compatibility_window",
            .number (.int settings.validation.compatibilityWindow.toNat)),
          ("accept_legacy_data_fields", .bool settings.validation.acceptLegacyData) ]) ]

/-- Refuses settings outside of the supported range. -/
def check (settings : Settings) : Except SettingsError Unit :=
  let depth := settings.validation.maxDepth
  if depth = 0 ∨ maxSupportedDepth < depth then .error (.depthOutOfRange depth) else .ok ()

/-- The settings of a text. -/
def parse (text : String) : Except SettingsError Settings := do
  let settings ← (TextDecoder.run Settings.decode text).mapError .malformed
  settings.check
  return settings

end Settings
end DocTree
