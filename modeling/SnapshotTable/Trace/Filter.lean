import SnapshotTable.Text.Bytes
import SnapshotTable.Trace.Event
import SnapshotTable.Trace.Pattern

/-! Event filters: comma-separated directives such as `warn` or `scan=debug`, each with a limit on
levels. The most specific directive that is about an event decides whether the event is kept. -/

namespace SnapshotTable

/-- The component that reports an event. Directives name components by the start of their paths. -/
def Event.target : Event → String
  | .manifestsMerged .. => "tessera_kernel::manifest::merge"
  | .snapshotProduced .. => "tessera_kernel::replay"
  | .baseStale .. | .snapshotPublished .. | .rolledBack .. => "tessera_kernel::table"
  | .commitRestaged .. => "tessera_kernel::ops"
  | .transactionCommitted .. => "tessera_kernel::transaction"
  | .scanPlanned .. => "tessera_kernel::scan::incremental"
  | .stepFailed .. => "tessera_kernel::simulate"
  | .scriptFinished .. => "tessera"

def Event.fieldNames (e : Event) : List String := "message" :: e.fields.map Prod.fst

namespace Trace

/-- A directive. It is about the events whose component starts with `component` and that have the
field `field`, where these are given. -/
structure Directive where
  component : Option (List Char) := none
  field : Option String := none
  /-- Whether it is about named spans of work or about field values, which no event matches. -/
  onSpan : Bool := false
  /-- The greatest rank of level that passes; zero lets nothing pass. -/
  limit : Nat := Level.trace.rank
  deriving DecidableEq, Repr, Inhabited

def limitWords : List String := ["off", "error", "warn", "info", "debug", "trace"]

def limit? (cs : List Char) : Option Nat :=
  let digits := match cs with
    | '+' :: rest => rest
    | cs => cs
  if !digits.isEmpty && digits.all Char.isDigit then
    let n := Text.Decimal.value digits
    if n < limitWords.length then some n else none
  else limitWords.findIdx? (·.toList == cs.map Char.toLower)

def suffixLimit? : List Char → Option Nat
  | [] => some Level.trace.rank
  | cs => limit? cs

def startsDirective (c : Char) : Bool :=
  Text.isAlphanumeric c || c == '-' || c == ':' || c == '_'

inductive Flaw where
  | malformed
  /-- A part of the text would start or end inside a character. -/
  | torn
  deriving DecidableEq, Repr

def formed {α : Type} (a : Option α) : Except Flaw α := a.elim (.error .malformed) .ok

def part (first last : Nat) (uncut : List Char) : Except Flaw (List Char) :=
  (Text.slice? first last uncut).elim (.error .torn) .ok

def closing (uncut : List Char) (first : Nat) : List Char → Except Flaw Nat
  | [] => .ok Level.trace.rank
  | '=' :: _ => do formed (suffixLimit? (← part (first + 1) (Text.byteCount uncut) uncut))
  | _ => .error .malformed

/-- The name of a field and whether a value is asked for, which must be one that a field can be
asked to have. What stands behind a second equals sign does not count. -/
def field? (cs : List Char) : Option (String × Bool) :=
  match cs.splitOn '=' with
  | [] | [[]] => none
  | [name] => some (String.ofList name, false)
  | name :: value :: _ => if isFieldValue value then some (String.ofList name, true) else none

def bracket (component : Option (List Char)) (uncut : List Char) (first : Nat) (rest : List Char) :
    Except Flaw Directive := do
  let name := rest.takeWhile fun c => c ≠ ']' ∧ c ≠ '\x7b'
  let last := first + Text.byteCount name
  match rest.drop name.length with
  | [] => .error .malformed
  | c :: rest =>
    let _ ← part first last uncut
    if c = ']' then
      return { component, onSpan := true, limit := ← closing uncut (last + 1) rest }
    else
      let inner := rest.takeWhile (· ≠ '\x7d')
      let first := last + 1
      let last := first + Text.byteCount inner
      match rest.drop inner.length with
      | [] => .error .malformed
      | _ :: rest =>
        let (field, valued) ← formed (field? (← part first last uncut))
        match rest with
        | ']' :: rest =>
          let limit ← closing uncut (last + 2) rest
          return { component, field := some field, onSpan := !name.isEmpty || valued, limit }
        | _ => .error .malformed

/-- Reads a directive. The places of its parts are found without the blanks around the text, and the
parts are cut from the text with them, at the same counts of bytes. -/
def Directive.ofText (uncut : List Char) : Except Flaw Directive :=
  let text := (Text.trimStart (Text.trimStart uncut).reverse).reverse
  match text with
  | [] => .error .malformed
  | '[' :: rest => bracket none uncut 1 rest
  | c :: _ =>
    if startsDirective c then
      let head := text.takeWhile fun c => c ≠ '=' ∧ c ≠ '['
      let last := Text.byteCount head
      match text.drop head.length with
      | [] => .ok ((limit? uncut).elim { component := some uncut } ({ limit := · }))
      | c :: rest => do
        let component ← part 0 last uncut
        if c = '=' then return { component, limit := ← closing uncut last (c :: rest) }
        else bracket component uncut (last + 1) rest
    else .error .malformed

def Directive.concerns (d : Directive) (e : Event) : Bool :=
  !d.onSpan && d.component.all (·.isPrefixOf e.target.toList) && d.field.all e.fieldNames.contains

/-- Whether `b` is at least as specific as `a`: by the length of the component, then by whether a
field is asked for, and then by the name of that field. -/
def Directive.yields (a b : Directive) : Bool :=
  let weight (d : Directive) : Nat := d.component.elim 0 fun cs => cs.length + 1
  match compare (weight a) (weight b) with
  | .lt => true
  | .gt => false
  | .eq =>
    match a.field, b.field with
    | none, _ => true
    | some _, none => false
    | some x, some y => x ≤ y

structure Filter where
  directives : List Directive
  deriving DecidableEq, Repr, Inhabited

namespace Filter

def parts (cs : List Char) : List (List Char) := cs.splitOn ','

/-- Reads a filter; empty parts are skipped, and the first flaw refuses the whole. -/
def read (text : String) : Except Flaw Filter :=
  (((parts text.toList).filter fun part => !part.isEmpty).mapM Directive.ofText).map Filter.mk

/-- The filter that is used where none is given or the one given is malformed: warnings and
errors. -/
def standard : Filter := ⟨[{ limit := Level.warn.rank }]⟩

def ofText? : Option String → Option Filter
  | none => some standard
  | some text =>
    match read text with
    | .ok f => some f
    | .error .malformed => some standard
    | .error .torn => none

/-- The directive that decides about an event; of equally specific ones the last. -/
def decisive? (f : Filter) (e : Event) : Option Directive :=
  (f.directives.filter (·.concerns e)).foldl
    (fun best d =>
      match best with
      | none => some d
      | some b => if b.yields d then some d else some b)
    none

def keeps (f : Filter) (e : Event) : Bool := (f.decisive? e).any fun d => e.level.rank ≤ d.limit

def select (f : Filter) (events : List Event) : List Event := events.filter f.keeps

end Filter

end Trace

end SnapshotTable
