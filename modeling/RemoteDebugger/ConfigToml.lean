import RemoteDebugger.Config
import RemoteDebugger.Error
import RemoteDebugger.Toml.Reader

/-!
# Reading configurations

A configuration as a TOML document. Keys that are no settings are ignored; a setting of the wrong
kind makes the whole document invalid. Records may be written as arrays of their fields in order.
-/

namespace RemoteDebugger.Config

open Toml (Entries)

def setting {α : Type} (es : Entries) (key : String) (default : α) (read : Toml → Option α) :
    Option α :=
  match es.lookup key with
  | none => some default
  | some v => read v

def readNat : Toml → Option Nat
  | .int n => if 0 ≤ n then some n.toNat else none
  | _ => none

def readBool : Toml → Option Bool
  | .bool b => some b
  | _ => none

def readText : Toml → Option String
  | .str s => some s
  | _ => none

def readArray : Toml → Option (List Toml)
  | .array items => some items
  | .tables elements => some elements
  | _ => none

def readTexts (v : Toml) : Option (List String) :=
  (readArray v).bind fun items => items.mapM readText

def isEmptyValue : Toml → Bool
  | .table _ [] => true
  | .array [] => true
  | _ => false

/-- A file kind: its name, or a table with the name over nothing. -/
def readKind : Toml → Option FileKind
  | .str s => FileKind.ofString? s
  | .table _ [(name, v)] => if isEmptyValue v then FileKind.ofString? name else none
  | _ => none

/-- Kinds of files by base name, in the order of the names. -/
def readKinds : Toml → Option (List (String × FileKind))
  | .table _ es => do
    let kinds ← es.mapM fun e => (readKind e.2).map fun kind => (e.1, kind)
    pure (kinds.mergeSort fun a b => a.1 ≤ b.1)
  | _ => none

def readMapping : Toml → Option Source.Mapping
  | .table _ es => do
    let client ← (es.lookup "client").bind readText
    let server ← (es.lookup "server").bind readText
    pure ⟨client, server⟩
  | .array (client :: server :: _) => do pure ⟨← readText client, ← readText server⟩
  | _ => none

def readMappings (v : Toml) : Option (List Source.Mapping) :=
  (readArray v).bind fun items => items.mapM readMapping

def readSome (v : Toml) : Option (Option String) := (readText v).map some

/-- The filter of the log settings. A date is a record without any of the settings. -/
def readLog : Toml → Option (Option String)
  | .table _ es => setting es "filter" none readSome
  | .array [] => some none
  | .array (v :: _) => readSome v
  | .datetime => some none
  | _ => none

def ofEntries (es : Entries) : Option Config := do
  let d : Config := {}
  pure
    { maxVariableText := ← setting es "max_variable_repr" d.maxVariableText readNat
      maxConsoleText := ← setting es "max_io_message" d.maxConsoleText readNat
      writerDelay := ← setting es "writer_delay_ms" d.writerDelay readNat
      dontTraceEnabled := ← setting es "dont_trace_enabled" d.dontTraceEnabled readBool
      dontTrace := ← setting es "dont_trace" d.dontTrace readKinds
      projectRoots := ← setting es "project_roots" d.projectRoots readTexts
      stepFilters := ← setting es "step_filters" d.stepFilters readTexts
      recordCallSignatures := ← setting es "record_call_signatures" d.recordCallSignatures readBool
      suspendOnBreakpointError :=
        ← setting es "suspend_on_breakpoint_exception" d.suspendOnBreakpointError readBool
      pathMappings := ← setting es "path_mappings" d.pathMappings readMappings
      wireTraceFile := ← setting es "wire_trace_file" d.wireTraceFile readSome
      logFilter := ← setting es "log" d.logFilter readLog }

def ofToml (document : String) : Except Error Config :=
  match Toml.parse document with
  | some (.table _ es) =>
    match ofEntries es with
    | some c => .ok c
    | none => .error .configuration
  | _ => .error .configuration

end RemoteDebugger.Config
