import SqlDump.Translation.Run

/-!
# One statement in the schema pass

What the schema pass does on one statement: a table is defined, or altered, or the tables stay as
they are. The place of a definition is noted with it. The options of the run and its counts stay as
they are whatever the statement is.

Main statement: `Translation.schemaStep`, what the schema pass does on a statement.
-/

namespace SqlDump.Translation

/-- What a statement does to the tables of a dump. -/
inductive TableStep (c : Catalog) (s : Statement) : Catalog → Prop
  | define {table : Table} (hs : s = .create table) : TableStep c s (c.insert table)
  | alter {o : OtherStatement} {a : Alteration} {d : Catalog} (hs : s = .other o)
      (hkind : (o.terminated && o.kind == .alterTable) = true)
      (hparse : Alteration.parse? c o.text = some (a, d)) : TableStep c s d
  | keep (hs : ∀ table, s ≠ .create table) : TableStep c s c

/-- The places of definitions behind a statement. -/
def originsBehind (t : Translation) (s : PlacedStatement) : List (Nat × Nat) :=
  match s.statement with
  | .create table => setOrigin t.origins (t.catalog.insertId table) (s.index, s.offset)
  | _ => t.origins

/-- What a statement does to a run in the schema pass. -/
structure SchemaStep (t : Translation) (s : PlacedStatement) (u : Translation) : Prop where
  options : u.options = t.options
  stats : u.stats = t.stats
  tables : TableStep t.catalog s.statement u.catalog
  origins : u.origins = t.originsBehind s

/-- One statement in the schema pass. -/
theorem schemaStep (t : Translation) (s : PlacedStatement) : SchemaStep t s (t.schemaStatement s) := by
  unfold schemaStatement
  cases hs : s.statement with
  | create table =>
    have horigins : t.originsBehind s =
        setOrigin t.origins (t.catalog.insertId table) (s.index, s.offset) := by
      rw [originsBehind, hs]
    unfold define
    dsimp only
    split <;> exact ⟨rfl, rfl, .define hs, horigins.symm⟩
  | insert i =>
    have horigins : t.originsBehind s = t.origins := by rw [originsBehind, hs]
    refine ⟨rfl, rfl, .keep ?_, horigins.symm⟩
    rw [hs]
    intro table h
    cases h
  | other o =>
    have hkeep {c : Catalog} : TableStep c s.statement c := by
      refine .keep ?_
      rw [hs]
      intro table h
      cases h
    have horigins : t.origins = t.originsBehind s := by rw [originsBehind, hs]
    unfold schemaOther
    dsimp only
    split
    · exact ⟨rfl, rfl, hkeep, horigins⟩
    · next hterminated =>
      split
      · next hkind =>
        have hother : (o.terminated && o.kind == .alterTable) = true := by
          simpa [hkind] using hterminated
        unfold alter
        split
        · next hparse => split <;> exact ⟨rfl, rfl, .alter hs hother hparse, horigins⟩
        · exact ⟨rfl, rfl, hkeep, horigins⟩
      · exact ⟨rfl, rfl, hkeep, horigins⟩
      · split <;> exact ⟨rfl, rfl, hkeep, horigins⟩
      · exact ⟨rfl, rfl, hkeep, horigins⟩

end SqlDump.Translation
