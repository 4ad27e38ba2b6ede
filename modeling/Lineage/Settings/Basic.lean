import Lineage.Failure
import Lineage.Override.Verdict
import Lineage.Toml.Basic

/-!
# Settings

What a settings file can say: where to look, how to write, and what to report. Every setting has a
default.
-/
namespace Lineage

/-- Which sources to scan. -/
structure ScanSettings where
  /-- Extensions without their dot. -/
  extensions : List String := ["php"]
  /-- Globs of paths to leave out. -/
  ignore : List String := []
  deriving DecidableEq, Repr, Inhabited

/-- How to write reports. -/
structure OutputSettings where
  defaultFormat : Option String := none
  useColor : Option Bool := none
  deriving DecidableEq, Repr, Inhabited

/-- What to report. -/
structure AnalysisSettings where
  /-- Kinds of discrepancy to leave out. -/
  ignoreKinds : List Verdict := []
  failOnDiscrepancy : Bool := false
  parallel : Bool := true
  deriving DecidableEq, Repr, Inhabited

structure Settings where
  scan : ScanSettings := {}
  output : OutputSettings := {}
  analysis : AnalysisSettings := {}
  deriving DecidableEq, Repr, Inhabited

/-! ## Decoding -/

open Toml (Value)

/-- A setting that is `default` when it is not there. -/
def settingOr (default : α) (read : Value → Option α) : Option Value → Option α
  | none => some default
  | some v => read v

/-- A setting that may be left out. -/
def optionalSetting (read : Value → Option α) : Option Value → Option (Option α)
  | none => some none
  | some v => (read v).map some

/-- A kind is its word, or a table from the word to something empty. -/
def Verdict.ofToml? : Value → Option Verdict
  | .string w => ofWord? w
  | .table [(w, .table [])] => ofWord? w
  | .table [(w, .array [])] => ofWord? w
  | _ => none

def ScanSettings.ofToml? (v : Value) : Option ScanSettings :=
  match v.fields? ["extensions", "ignore"] with
  | some [extensions, ignore] => do
    let standard : ScanSettings := {}
    let strings := Value.list? Value.string?
    return { extensions := ← settingOr standard.extensions strings extensions
             ignore := ← settingOr standard.ignore strings ignore }
  | _ => none

def OutputSettings.ofToml? (v : Value) : Option OutputSettings :=
  match v.fields? ["default_format", "use_color"] with
  | some [format, color] => do
    return { defaultFormat := ← optionalSetting Value.string? format
             useColor := ← optionalSetting Value.boolean? color }
  | _ => none

def AnalysisSettings.ofToml? (v : Value) : Option AnalysisSettings :=
  match v.fields? ["ignore_kinds", "fail_on_discrepancy", "parallel"] with
  | some [kinds, fail, parallel] => do
    let standard : AnalysisSettings := {}
    return { ignoreKinds := ← settingOr standard.ignoreKinds (Value.list? Verdict.ofToml?) kinds
             failOnDiscrepancy := ← settingOr standard.failOnDiscrepancy Value.boolean? fail
             parallel := ← settingOr standard.parallel Value.boolean? parallel }
  | _ => none

def Settings.ofToml? (v : Value) : Option Settings :=
  match v.fields? ["scan", "output", "analysis"] with
  | some [scan, output, analysis] => do
    return { scan := ← settingOr {} ScanSettings.ofToml? scan
             output := ← settingOr {} OutputSettings.ofToml? output
             analysis := ← settingOr {} AnalysisSettings.ofToml? analysis }
  | _ => none

end Lineage
