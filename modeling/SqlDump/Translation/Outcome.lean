import SqlDump.Translation.State

/-!
# Outcomes

What a finished run has to report, with tables given by their names.
-/

namespace SqlDump

/-- A foreign key that is added once all tables exist. -/
structure DeferredKey where
  table : Text
  constraint : Text
  /-- The name of the referenced table. -/
  references : Text
  /-- Whether the dump has the referenced table. -/
  resolved : Bool
  deriving DecidableEq, Repr

/-- A plan by names. -/
structure PlanSummary where
  /-- The tables in the order of their creation. -/
  order : List Text := []
  deferred : List DeferredKey := []
  deriving DecidableEq, Repr

/-- What a run has to report. -/
structure Outcome where
  mode : Mode
  stats : Stats
  plan : PlanSummary
  diagnostics : Diagnostics
  deriving Repr

/-- A deferred foreign key by names. -/
def DeferredKey.ofKey (catalog : Catalog) (key : ForeignKey) : DeferredKey where
  table := key.table
  constraint := key.name
  references := key.referencedTable
  resolved := catalog.defines key.referencedTable

namespace Translation

/-- The plan by names. -/
def planSummary (t : Translation) : PlanSummary where
  order := (Postgres.Script.planned t.catalog t.plan).map fun (_, table) => table.name
  deferred := (Postgres.Script.deferredKeys t.catalog t.plan).map (.ofKey t.catalog)

/-- The outcome of a run that ends here. -/
def outcome (t : Translation) : Outcome where
  mode := t.options.mode
  stats := t.stats
  plan := t.planSummary
  diagnostics := t.diagnostics

end Translation

end SqlDump
