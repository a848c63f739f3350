import SqlDump.Command.Request
import SqlDump.Command.Response
import SqlDump.Report

/-!
# The command `order`

The tables of a dump in the order of their creation, and what stands in the way of it.

Main statement: `OrderRequest.respond_files`, the command leaves the files as they are.
-/

namespace SqlDump.Command.OrderRequest

open Text

/-- The options of the run. -/
def options (r : OrderRequest) : Options where
  mode := if r.schema then .schema else .full
  pinned := (r.pinned.map tableNames).getD []

/-- The line for a foreign key that is added later. -/
def deferredLine (k : DeferredKey) : Text :=
  let mark : Text := if k.resolved then [] else " (missing table)"
  [' ', ' '] ++ k.table ++ '.' :: k.constraint ++ [' ', '-', '>', ' '] ++ k.references ++ mark

/-- The lines about foreign keys that are added later. -/
def deferredLines (p : PlanSummary) : List Text :=
  if p.deferred.isEmpty then []
  else
    ([[], "Deferred foreign keys (" ++ ofNat p.deferred.length ++ "):"] : List Text) ++
      p.deferred.map deferredLine

/-- The lines about what did not work out. -/
def warningLines (ds : Diagnostics) : List Text :=
  let cycles := ds.count .cyclicDependency
  let unknown := ds.count .unknownPinnedTable
  let cycleLines : List Text :=
    [[], "Warning: " ++ ofNat cycles ++ " dependency cycle(s) broken"]
  let unknownLines : List Text :=
    ["Warning: " ++ ofNat unknown ++ " pinned table(s) not found in the dump"]
  (if cycles = 0 then [] else cycleLines) ++ if unknown = 0 then [] else unknownLines

/-- The answer with the outcome of the run. -/
def finish (r : OrderRequest) (o : Outcome) (files : Tree) : Response :=
  if r.json then { output := o.plan.report.text ++ ['\n'], files }
  else if o.plan.order.isEmpty then
    ({ files } : Response).notify ["No tables found in the file."]
  else
    ({ output := o.plan.order.flatMap (· ++ ['\n']), files } : Response).notify
      (deferredLines o.plan ++ warningLines o.diagnostics)

/-- The answer to a request. -/
def respond (r : OrderRequest) (files : Tree) : Response :=
  let path := Path.ofText r.file
  if !files.contains path then .failure (.missingInput r.file) [] files
  else
    match files.read path, Compression.ofPath path with
    | .error e, _ => .failure (.run (.file e)) [] files
    | .ok bs, .none => r.finish (planOf (.ofOctets bs) r.options) files
    | .ok _, how => .failure (.run (.compressed how)) [] files

theorem finish_files (r : OrderRequest) (o : Outcome) (files : Tree) :
    (r.finish o files).files = files := by
  simp only [finish]
  split
  · rfl
  · split <;> rfl

/-- The command leaves the files as they are. -/
theorem respond_files (r : OrderRequest) (files : Tree) : (r.respond files).files = files := by
  simp only [respond]
  split
  · rfl
  · split
    · rfl
    · exact finish_files _ _ _
    · rfl

end SqlDump.Command.OrderRequest
