import StartPage.Settings
import StartPage.Text.Quoted

/-!
Bringing a stored record up to date. A chain holds steps of strictly rising versions; a
record is dated by its stamp or, without one, by the longest run of steps whose probes know
it, and every step above that date is applied in order. What comes out is typed as settings.
A transformation may change the record and still report a fault; the faulty record goes no
further in `Chain.run`.
-/
namespace StartPage.Migration

structure Step where
  version : Version
  name : String
  /-- Knows a record that already has the step's shape. -/
  probe : Option (Record → Bool) := none
  transform : Record → Record × Option CorruptField

namespace Step

def knows (step : Step) (record : Record) : Bool := step.probe.any fun probe => probe record

def apply (step : Step) (record : Record) : Except CorruptField Record :=
  match step.transform record with
  | (after, none) => .ok after
  | (_, some fault) => .error fault

def describe (step : Step) : String :=
  "MigrationStep \x7b version: " ++ toString step.version.toNat ++ ", name: " ++
    Text.diagnosticQuoted step.name ++ ", has_probe: " ++ toString step.probe.isSome ++ " \x7d"

end Step

/-- Work on a record in place. What was written before a fault stays written. -/
abbrev Edit := ExceptT CorruptField (StateM Record)

namespace Edit

def look {α : Type} (reader : Record → Except CorruptField α) : Edit α :=
  ExceptT.mk do return reader (← get)

def transform (edit : Edit Unit) (record : Record) : Record × Option CorruptField :=
  match (edit.run.run record).run with
  | (.ok (), after) => (after, none)
  | (.error fault, after) => (after, some fault)

end Edit

structure Chain where
  base : Version
  steps : List Step
  ascending : (base :: steps.map Step.version).Pairwise (· < ·)

structure Outcome where
  settings : Settings
  dated : Version
  reached : Version
  applied : List String
deriving DecidableEq, Inhabited

def Outcome.migrated (outcome : Outcome) : Bool := !outcome.applied.isEmpty

theorem le_getLast {first : Version} {rest : List Version}
    (rising : (first :: rest).Pairwise (· < ·)) :
    ∀ version ∈ first :: rest, version ≤ (first :: rest).getLast (by simp) := by
  induction rest generalizing first with
  | nil => simp
  | cons second rest ih =>
    intro version member
    rw [List.pairwise_cons] at rising
    rw [List.getLast_cons (by simp)]
    rcases List.mem_cons.mp member with rfl | member
    · exact UInt32.le_of_lt (rising.1 _ (List.getLast_mem _))
    · exact ih rising.2 version member

namespace Chain

def empty (base : Version) : Chain := ⟨base, [], by simp⟩

def current (chain : Chain) : Version :=
  (chain.base :: chain.steps.map Step.version).getLast (by simp)

def add (chain : Chain) (step : Step) : Except OrderError Chain :=
  if above : chain.current < step.version then
    .ok
      { base := chain.base
        steps := chain.steps ++ [step]
        ascending := by
          rw [List.map_append, ← List.cons_append, List.pairwise_append]
          refine ⟨chain.ascending, by simp, ?_⟩
          intro version member other last
          simp only [List.map_cons, List.map_nil, List.mem_singleton] at last
          exact last ▸ UInt32.lt_of_le_of_lt (le_getLast chain.ascending version member) above }
  else .error ⟨step.name, step.version, chain.current⟩

def addAll (chain : Chain) (steps : List Step) : Except OrderError Chain := steps.foldlM add chain

def versionFault (found : Value) : CorruptField :=
  ⟨versionKey, "a non-negative integer", found.kind⟩

/-- Version of the last step in the longest run of steps, from the first on, that know the
record. -/
def date (chain : Chain) (record : Record) : Version :=
  (((chain.steps.takeWhile fun step => step.knows record).getLast?).map Step.version).getD
    chain.base

def detect (chain : Chain) (record : Record) : Except CorruptField Version :=
  match record.present? versionKey with
  | none => .ok (chain.date record)
  | some stamp =>
    match stamp.natural? with
    | some version => if version < UInt32.size then .ok (.ofNat version) else .error (versionFault stamp)
    | none => .error (versionFault stamp)

def newer (chain : Chain) (version : Version) : List Step :=
  chain.steps.filter fun step => version < step.version

def run (chain : Chain) (record : Record) : Except CorruptField Outcome := do
  let dated ← chain.detect record
  let steps := chain.newer dated
  let record ← steps.foldlM (fun record step => step.apply record) record
  let settings ← Settings.ofRecord (record.erase versionKey)
  return ⟨settings, dated, chain.current, steps.map Step.name⟩

def stamp (chain : Chain) (settings : Settings) : Record := settings.toRecord chain.current

end Chain
end StartPage.Migration
