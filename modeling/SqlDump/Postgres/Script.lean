import SqlDump.Insert
import SqlDump.Options
import SqlDump.Plan.Basic
import SqlDump.Postgres.CreateTable
import SqlDump.Postgres.Passthrough

/-!
# Scripts

A script is a list of parts, which is printed in the end. Its layout: settings, `DROP TABLE`
statements if asked for, tables in the order of the plan, other schema statements, data, the
positions of sequences, deferred foreign keys.
-/

namespace SqlDump.Postgres

open Text

/-- One part of a script. -/
inductive Part where
  /-- The head of a script, with the name of the dump where it has one. -/
  | preamble (source : Option Text) (mode : Mode)
  /-- The title of a section. -/
  | heading (title : Text)
  /-- Triggers are set to fire again. -/
  | restoreTriggers
  | drop (table : Text)
  | create (table : CreateTable)
  | insert (insert : Insert) (families : List TypeFamily)
  /-- The sequence of a serial column is moved behind the rows. -/
  | sequence (table column : Text)
  | foreignKey (key : ForeignKey)
  /-- A statement or comment of the dump, in its final form. -/
  | other (sql : Text)
  deriving DecidableEq, Repr

/-- A script in the order of its parts. -/
abbrev Script := List Part

/-- The settings of every session that runs a script. -/
def sessionSettings : List Text :=
  ["SET statement_timeout = 0;", "SET lock_timeout = 0;", "SET client_encoding = 'UTF8';",
    "SET standard_conforming_strings = on;", "SET check_function_bodies = false;",
    "SET client_min_messages = warning;", "SET row_security = off;"]

/-- The lines of the head of a script. -/
def preambleLines (source : Option Text) (mode : Mode) : List Text :=
  (["-- PostgreSQL dump translated from MySQL", "-- Generated by dump-translate 0.4.0"] :
      List Text) ++
    (source.map fun name => ("-- Source: " : Text) ++ name).toList ++
    [("-- Mode: " : Text) ++ mode.name, []] ++ sessionSettings ++
    (if mode = .full then [("SET session_replication_role = 'replica';" : Text)] else []) ++ [[]]

/-- The values of a row, for columns of the given families. -/
def renderRow (families : List TypeFamily) (encoding : Encoding) (row : Row) : Text :=
  "(" ++ join ", " (row.mapIdx fun i v => renderValue v (families.getD i .other) encoding) ++ ")"

/-- The statement that inserts the rows; nothing if there are none. -/
def renderInsert? (i : Insert) (families : List TypeFamily) : Option Text :=
  if i.rows.isEmpty then none
  else
    some ("INSERT INTO " ++ quoteName i.table ++
      (match i.columns with
        | some columns => " (" ++ quoteNames columns ++ ")"
        | none => []) ++
      " VALUES\n" ++ join ",\n" (i.rows.map (renderRow families i.encoding)) ++ ";")

/-- For each value of a row, whether it is written as `NULL` for being a zero date. -/
def nulledInRow (families : List TypeFamily) (row : Row) : List Bool :=
  row.mapIdx fun i v => isNulledDate v (families.getD i .other)

/-- The number of values that are written as `NULL` for being a zero date. -/
def nulledDates (i : Insert) (families : List TypeFamily) : Nat :=
  (i.rows.flatMap (nulledInRow families)).countP id

def renderDrop (table : Text) : Text := "DROP TABLE IF EXISTS " ++ quoteName table ++ " CASCADE;"

/-- The statement that moves the sequence of a serial column behind the rows. -/
def renderSequence (table column : Text) : Text :=
  "SELECT setval(pg_get_serial_sequence(" ++ quoteString (quoteName table) ++ ", " ++
    quoteString column ++ "), COALESCE((SELECT MAX(" ++ quoteName column ++ ") FROM " ++
    quoteName table ++ "), 0) + 1, false);"

/-- The statement that adds a foreign key to its table. -/
def renderAddForeignKey (key : ForeignKey) : Text :=
  "ALTER TABLE " ++ quoteName key.table ++ " ADD " ++ renderForeignKey key ++ ";"

namespace Part

/-- The statement of a part, if it is one. -/
def statement? : Part → Option Text
  | preamble _ _ => none
  | heading _ => none
  | restoreTriggers => none
  | drop table => some (renderDrop table)
  | create table => some table.render
  | insert i families => renderInsert? i families
  | sequence table column => some (renderSequence table column)
  | foreignKey key => some (renderAddForeignKey key)
  | other sql => some sql

/-- The text of a part. A statement ends with an empty line. -/
def text (p : Part) : Text :=
  match p with
  | preamble source mode => (preambleLines source mode).flatMap (· ++ ['\n'])
  | heading title => "--\n-- " ++ title ++ "\n--\n\n"
  | restoreTriggers => "SET session_replication_role = 'origin';\n\n"
  | p =>
    match p.statement? with
    | some sql => sql ++ "\n\n"
    | none => []

end Part

namespace Script

/-- The printed script. -/
def text (s : Script) : Text := s.flatMap Part.text

/-- The number of statements in a script. -/
def statements (s : Script) : Nat := (s.filterMap Part.statement?).length

/-- A section with a title, unless it is empty. -/
def titled (title : Text) (parts : Script) : Script :=
  if parts.isEmpty then [] else .heading title :: parts

/-- The tables of a plan, by number, in the order of their creation. -/
def planned (catalog : Catalog) (plan : Plan) : List (Nat × Table) :=
  plan.order.filterMap fun id => (catalog.table? id).map (id, ·)

/-- The section that drops the tables of a plan, the last first. -/
def drops (catalog : Catalog) (plan : Plan) : Script :=
  titled "Drop existing tables" ((planned catalog plan).reverse.map fun (_, t) => .drop t.name)

/-- The section that creates the tables of a plan. -/
def tables (catalog : Catalog) (plan : Plan) : Script :=
  titled "Tables" ((planned catalog plan).map fun (id, t) =>
    .create (.ofTable t (plan.inline.getD id [])))

/-- The section for other statements about the schema. -/
def schemaStatements (statements : List Text) : Script :=
  titled "Other schema statements" (statements.map .other)

/-- The AUTO_INCREMENT columns of a table that become serial. -/
def serialColumns (t : Table) : List Column := t.columns.filter fun c => (serialType? c).isSome

/-- The section that moves the sequences behind the rows, once triggers fire again. -/
def sequences (catalog : Catalog) (plan : Plan) : Script :=
  .restoreTriggers :: titled "Sequences" ((planned catalog plan).flatMap fun (_, t) =>
    (serialColumns t).map fun c => .sequence t.name c.name)

/-- The foreign keys that a plan defers. -/
def deferredKeys (catalog : Catalog) (plan : Plan) : List ForeignKey :=
  plan.deferred.filterMap fun (id, key) => (catalog.table? id).bind fun t => t.foreignKeys[key]?

/-- The section that adds the foreign keys that a plan defers. -/
def deferred (catalog : Catalog) (plan : Plan) : Script :=
  titled "Foreign keys" ((deferredKeys catalog plan).map .foreignKey)

end Script

end SqlDump.Postgres
