import SnapshotTable.Json.Printer
import SnapshotTable.Trace.Filter

/-! Log lines: an event with the time of its report, as a JSON document or as plain text. -/

namespace SnapshotTable

open Text (Decimal.padded)

def Instant.stamp (t : Instant) : String :=
  String.ofList (Time.instantText 'T' ⟨t.second, 0⟩
    ++ '.' :: Decimal.padded 6 (t.nano % Instant.nanosPerSecond / 1000) ++ ['Z'])

def FieldValue.toJson : FieldValue → Json
  | .number n => .int n
  | .text s => .str s

namespace Event

def fieldsJson (e : Event) : Json :=
  .obj (("message", .str e.message) :: e.fields.map fun (name, value) => (name, value.toJson))

def record (e : Event) : List (String × Json) :=
  [("level", .str (e.level.name.map Char.toUpper)), ("fields", e.fieldsJson)]

def jsonLine (e : Event) (t : Instant) : String :=
  Json.render (.obj (("timestamp", .str t.stamp) :: e.record ++ [("target", .str e.target)]))

def textLine (e : Event) (t : Instant) : String :=
  let level := e.level.name.map Char.toUpper
  let fields := e.fields.map fun (name, value) => name ++ "=" ++ value.display
  " ".intercalate (t.stamp :: ("".pushn ' ' (5 - level.length) ++ level) :: (e.target ++ ":")
    :: e.message :: fields)

end Event

end SnapshotTable
