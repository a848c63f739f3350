import SqlDump.Json
import SqlDump.Translation.Outcome

/-!
# Reports

The outcome of a run as a JSON document.
-/

namespace SqlDump

open Json

/-- Counts by the names of what is counted, in the order of these names. -/
def sortedCounts (counts : List (DiagnosticKind × Nat)) : List (Text × Nat) :=
  (counts.map fun (kind, n) => (kind.name, n)).mergeSort fun a b => !decide (b.1 < a.1)

/-- A diagnostic; what it does not have is left out. -/
def Diagnostic.report (d : Diagnostic) : Json :=
  object ([(("kind" : Text), string d.kind.name)] ++
    member? "statement" (d.statement.map number) ++ member? "offset" (d.offset.map number) ++
    member? "table" (d.table.map string) ++ [(("message" : Text), string d.message)])

/-- The diagnostics kept, and the counts of all. -/
def Diagnostics.report (ds : Diagnostics) : Json :=
  object [
    ("total", number ds.total),
    ("suppressed", number ds.suppressed),
    ("counts", object ((sortedCounts ds.tally).map fun (name, n) => (name, number n))),
    ("diagnostics", array (ds.entries.toList.map Diagnostic.report))]

def DeferredKey.report (k : DeferredKey) : Json :=
  object [
    ("table", string k.table),
    ("constraint", string k.constraint),
    ("references", string k.references),
    ("resolved", bool k.resolved)]

def PlanSummary.report (p : PlanSummary) : Json :=
  object [
    ("order", array (p.order.map string)),
    ("deferred", array (p.deferred.map DeferredKey.report))]

def Stats.report (s : Stats) : Json :=
  object [
    ("statements", number s.statements),
    ("tables", number s.tables),
    ("inserts", number s.inserts),
    ("rows", number s.rows),
    ("passthrough", number s.passthrough),
    ("skipped", number s.skipped),
    ("deferred_fks", number s.deferredKeys),
    ("files", number s.files)]

/-- The report of a run, with the path of its dump where it has one. -/
def Outcome.report (o : Outcome) (input : Option Text) : Json :=
  object (member? "input" (input.map string) ++ [
    (("mode" : Text), string o.mode.name),
    ("stats", o.stats.report),
    ("plan", o.plan.report),
    ("diagnostics", o.diagnostics.report)])

end SqlDump
