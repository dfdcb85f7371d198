import Mathlib.Data.List.Basic
import StartPage.Migration

/-!
Chains in general. A call that adds a step takes only what is above all versions so far, so versions
rise, and the steps above a version are an end of the chain. The steps whose probes know a record
are counted from the first on, up to one that does not; the version that dates the record cuts the
chain at the same place. A run applies the steps after the cut, in order, up to the first that
fails.
-/
namespace StartPage.Migration

/-- Steps applied one after another, up to the first that fails. -/
inductive Applies : List Step → Record → Except CorruptField Record → Prop where
  | done (record : Record) : Applies [] record (.ok record)
  | passed {step : Step} {rest : List Step} {record next : Record}
      {result : Except CorruptField Record} (worked : step.transform record = (next, none))
      (further : Applies rest next result) : Applies (step :: rest) record result
  | failed {step : Step} {rest : List Step} {record next : Record} {fault : CorruptField}
      (broke : step.transform record = (next, some fault)) :
      Applies (step :: rest) record (.error fault)

theorem Step.apply_eq_ok_iff {step : Step} {record next : Record} :
    step.apply record = .ok next ↔ step.transform record = (next, none) := by
  rw [Step.apply]
  rcases step.transform record with ⟨other, _ | fault⟩ <;> simp

theorem Step.apply_failed {step : Step} {record next : Record} {fault : CorruptField}
    (broke : step.transform record = (next, some fault)) : step.apply record = .error fault := by
  rw [Step.apply, broke]

theorem applies_iff {steps : List Step} {record : Record} {result : Except CorruptField Record} :
    Applies steps record result ↔
      steps.foldlM (fun record step => step.apply record) record = result := by
  constructor
  · intro applies
    induction applies with
    | done record => rfl
    | passed worked further ih =>
      rw [List.foldlM_cons, Step.apply_eq_ok_iff.mpr worked]
      exact ih
    | failed broke =>
      rw [List.foldlM_cons, Step.apply_failed broke]
      rfl
  · rintro rfl
    induction steps generalizing record with
    | nil => exact .done record
    | cons step rest ih =>
      rw [List.foldlM_cons]
      rcases worked : step.transform record with ⟨next, _ | fault⟩
      · rw [Step.apply_eq_ok_iff.mpr worked]
        exact .passed worked ih
      · rw [Step.apply_failed worked]
        exact .failed worked

namespace Chain

variable {chain : Chain} {record : Record} {dated : Version}

section Adding

/-- A call that adds a step: the chain that there is after it, and why the step was refused if it
was. -/
def offer (chain : Chain) (step : Step) : Chain × Option OrderError :=
  match chain.add step with
  | .ok longer => (longer, none)
  | .error fault => (chain, some fault)

def built (base : Version) (calls : List Step) : Chain :=
  calls.foldl (fun chain step => (chain.offer step).1) (empty base)

theorem offer_refused {step : Step} (low : step.version ≤ chain.current) :
    chain.offer step = (chain, some ⟨step.name, step.version, chain.current⟩) := by
  rw [offer, add, dif_neg (UInt32.not_lt.mpr low)]

theorem offer_taken {step : Step} (above : chain.current < step.version) :
    ∃ longer, chain.offer step = (longer, none) ∧ longer.base = chain.base ∧
      longer.steps = chain.steps ++ [step] := by
  rw [offer, add, dif_pos above]
  exact ⟨_, rfl, rfl, rfl⟩

theorem base_offer (chain : Chain) (step : Step) : (chain.offer step).1.base = chain.base := by
  by_cases low : step.version ≤ chain.current
  · rw [offer_refused low]
  · obtain ⟨longer, taken, base, -⟩ := offer_taken (UInt32.not_le.mp low)
    rw [taken, base]

theorem base_built (base : Version) (calls : List Step) : (built base calls).base = base := by
  have kept : ∀ chain : Chain,
      (calls.foldl (fun chain step => (chain.offer step).1) chain).base = chain.base := by
    induction calls with
    | nil => exact fun _ => rfl
    | cons step calls ih => exact fun chain => (ih (chain.offer step).1).trans (base_offer chain step)
  exact kept (empty base)

end Adding

section Cuts

structure CutAt (chain : Chain) (dated : Version) (earlier later : List Step) : Prop where
  split : chain.steps = earlier ++ later
  covered : ∀ step ∈ earlier, step.version ≤ dated
  ahead : ∀ step ∈ later, dated < step.version

/-- The longest run of steps, from the first on, that know the record, and the steps after it. -/
structure KnownUpTo (chain : Chain) (record : Record) (known rest : List Step) : Prop where
  split : chain.steps = known ++ rest
  knows : ∀ step ∈ known, step.knows record = true
  stops : ∀ next ∈ rest.head?, next.knows record = false

theorem CutAt.newer {earlier later : List Step} (cut : chain.CutAt dated earlier later) :
    chain.newer dated = later := by
  rw [Chain.newer, cut.split, List.filter_append]
  have passed : (earlier.filter fun step => dated < step.version) = [] := by
    rw [List.filter_eq_nil_iff]
    intro step member
    simpa using cut.covered step member
  have left : (later.filter fun step => dated < step.version) = later := by
    rw [List.filter_eq_self]
    intro step member
    simpa using cut.ahead step member
  rw [passed, left, List.nil_append]

theorem exists_cutAt (chain : Chain) (dated : Version) :
    ∃ earlier later, chain.CutAt dated earlier later := by
  have rising := (List.pairwise_cons.mp chain.ascending).2
  have cut : ∀ steps : List Step, (steps.map Step.version).Pairwise (· < ·) →
      ∃ earlier later, steps = earlier ++ later ∧
        (∀ step ∈ earlier, step.version ≤ dated) ∧ ∀ step ∈ later, dated < step.version := by
    intro steps
    induction steps with
    | nil => exact fun _ => ⟨[], [], rfl, nofun, nofun⟩
    | cons first rest ih =>
      intro rising
      rw [List.map_cons, List.pairwise_cons] at rising
      by_cases beyond : dated < first.version
      · refine ⟨[], first :: rest, rfl, nofun, List.forall_mem_cons.mpr ⟨beyond, ?_⟩⟩
        intro step member
        exact UInt32.lt_trans beyond (rising.1 _ (List.mem_map_of_mem member))
      · obtain ⟨earlier, later, split, covered, ahead⟩ := ih rising.2
        refine ⟨first :: earlier, later, by rw [split, List.cons_append], ?_, ahead⟩
        exact List.forall_mem_cons.mpr ⟨UInt32.not_lt.mp beyond, covered⟩
  obtain ⟨earlier, later, split, covered, ahead⟩ := cut chain.steps rising
  exact ⟨earlier, later, split, covered, ahead⟩

end Cuts

section Dating

/-- The version of the last of the steps, or the oldest one when there is none. -/
def reached (chain : Chain) (known : List Step) : Version :=
  (chain.base :: known.map Step.version).getLast (by simp)

theorem date_eq_reached (chain : Chain) (record : Record) :
    chain.date record = chain.reached (chain.steps.takeWhile fun step => step.knows record) := by
  apply Option.some.inj
  rw [reached, ← List.getLast?_eq_some_getLast, List.getLast?_cons, List.getLast?_map]
  rfl

theorem cutAt_reached {known rest : List Step} (split : chain.steps = known ++ rest) :
    chain.CutAt (chain.reached known) known rest := by
  have rising := chain.ascending
  rw [split, List.map_append, ← List.cons_append, List.pairwise_append] at rising
  refine ⟨split, ?_, ?_⟩
  · intro step member
    exact le_getLast rising.1 _ (List.mem_cons_of_mem _ (List.mem_map_of_mem member))
  · intro step member
    exact rising.2.2 _ (List.getLast_mem _) _ (List.mem_map_of_mem member)

theorem exists_knownUpTo (chain : Chain) (record : Record) :
    ∃ known rest, chain.KnownUpTo record known rest ∧ chain.date record = chain.reached known := by
  refine ⟨chain.steps.takeWhile fun step => step.knows record,
    chain.steps.dropWhile fun step => step.knows record, ⟨?_, ?_, ?_⟩,
    chain.date_eq_reached record⟩
  · exact List.takeWhile_append_dropWhile.symm
  · exact fun step member => List.all_eq_true.mp List.all_takeWhile step member
  · intro next first
    have stopped := List.head?_dropWhile_not (fun step : Step => step.knows record) chain.steps
    rw [Option.mem_def.mp first] at stopped
    exact stopped

theorem reached_bounds {known rest : List Step} (split : chain.steps = known ++ rest) :
    chain.base ≤ chain.reached known ∧ chain.reached known ≤ chain.current := by
  have rising := chain.ascending
  rw [split, List.map_append, ← List.cons_append] at rising
  have among : chain.reached known ∈ chain.base :: chain.steps.map Step.version := by
    rw [split, List.map_append, ← List.cons_append]
    exact List.mem_append_left _ (List.getLast_mem _)
  exact ⟨le_getLast (List.pairwise_append.mp rising).1 _ List.mem_cons_self,
    le_getLast chain.ascending _ among⟩

theorem knows_of_le_date {step : Step} (member : step ∈ chain.steps)
    (covered : step.version ≤ chain.date record) : step.knows record = true := by
  obtain ⟨known, rest, upTo, dated⟩ := chain.exists_knownUpTo record
  rw [upTo.split] at member
  rcases List.mem_append.mp member with early | late
  · exact upTo.knows step early
  · have above := (cutAt_reached upTo.split).ahead step late
    exact absurd (dated ▸ above) (UInt32.not_lt.mpr covered)

end Dating

section Runs

inductive Ends (chain : Chain) (dated : Version) (steps : List Step) (record : Record) :
    Except CorruptField Outcome → Prop where
  | failed {fault : CorruptField} (applied : Applies steps record (.error fault)) :
      Ends chain dated steps record (.error fault)
  | untyped {after : Record} {fault : CorruptField} (applied : Applies steps record (.ok after))
      (refused : Settings.ofRecord (after.erase versionKey) = .error fault) :
      Ends chain dated steps record (.error fault)
  | typed {after : Record} {settings : Settings} (applied : Applies steps record (.ok after))
      (read : Settings.ofRecord (after.erase versionKey) = .ok settings) :
      Ends chain dated steps record (.ok ⟨settings, dated, chain.current, steps.map Step.name⟩)

theorem run_of_detect (detected : chain.detect record = .ok dated) :
    chain.run record = do
      let after ← (chain.newer dated).foldlM (fun record step => step.apply record) record
      let settings ← Settings.ofRecord (after.erase versionKey)
      return ⟨settings, dated, chain.current, (chain.newer dated).map Step.name⟩ := by
  rw [run, detected]
  rfl

theorem run_eq_iff {result : Except CorruptField Outcome}
    (detected : chain.detect record = .ok dated) :
    chain.run record = result ↔ chain.Ends dated (chain.newer dated) record result := by
  rw [run_of_detect detected]
  constructor
  · rintro rfl
    cases applied : (chain.newer dated).foldlM (fun record step => step.apply record) record with
    | error fault => exact .failed (applies_iff.mpr applied)
    | ok after =>
      change chain.Ends dated _ record (Settings.ofRecord (after.erase versionKey) >>= _)
      cases read : Settings.ofRecord (after.erase versionKey) with
      | error fault => exact .untyped (applies_iff.mpr applied) read
      | ok settings => exact .typed (applies_iff.mpr applied) read
  · intro ends
    cases ends with
    | failed applied =>
      rw [applies_iff.mp applied]
      rfl
    | untyped applied refused =>
      rw [applies_iff.mp applied]
      change Settings.ofRecord _ >>= _ = _
      rw [refused]
      rfl
    | typed applied read =>
      rw [applies_iff.mp applied]
      change Settings.ofRecord _ >>= _ = _
      rw [read]
      rfl

end Runs

/-- A chain that calls lead to has rising versions above its oldest, and refuses exactly a step whose
version is not above all of them; it is then as it was. A record without a stamp is dated by the last
of the steps that know it, counted from the first on, and the steps after that one are those that a
run applies. Whatever the date, a run applies the steps above it in order, up to the first that
fails. -/
theorem runs_from_first_unknown_step (base : Version) (calls : List Step) :
    let chain := built base calls
    chain.base = base ∧ (base :: chain.steps.map Step.version).Pairwise (· < ·) ∧
    (∀ step : Step,
      ((∃ fault, (chain.offer step).2 = some fault) ↔ step.version ≤ chain.current) ∧
      (step.version ≤ chain.current →
        chain.offer step = (chain, some ⟨step.name, step.version, chain.current⟩)) ∧
      (chain.current < step.version → ∃ longer, chain.offer step = (longer, none) ∧
        longer.base = base ∧ longer.steps = chain.steps ++ [step])) ∧
    ∀ record : Record,
      (record.present? versionKey = none → ∃ known rest,
        chain.KnownUpTo record known rest ∧
        chain.detect record = .ok (chain.reached known) ∧
        chain.CutAt (chain.reached known) known rest ∧
        base ≤ chain.reached known ∧ chain.reached known ≤ chain.current) ∧
      (∀ fault, chain.detect record = .error fault → chain.run record = .error fault) ∧
      ∀ dated, chain.detect record = .ok dated → ∃ earlier later,
        chain.CutAt dated earlier later ∧
        ∀ result, chain.run record = result ↔ chain.Ends dated later record result := by
  intro chain
  have oldest : chain.base = base := base_built base calls
  refine ⟨oldest, oldest ▸ chain.ascending, ?_, ?_⟩
  · intro step
    refine ⟨⟨?_, ?_⟩, offer_refused, ?_⟩
    · rintro ⟨fault, refused⟩
      by_contra low
      obtain ⟨longer, taken, -⟩ := offer_taken (UInt32.not_le.mp low)
      rw [taken] at refused
      cases refused
    · intro low
      exact ⟨_, congrArg Prod.snd (offer_refused low)⟩
    · intro above
      obtain ⟨longer, taken, kept, steps⟩ := offer_taken above
      exact ⟨longer, taken, kept.trans oldest, steps⟩
  · intro record
    refine ⟨?_, ?_, ?_⟩
    · intro unstamped
      obtain ⟨known, rest, upTo, dated⟩ := chain.exists_knownUpTo record
      obtain ⟨least, most⟩ := reached_bounds upTo.split
      have detected : chain.detect record = .ok (chain.reached known) := by
        rw [detect, unstamped, dated]
      exact ⟨known, rest, upTo, detected, cutAt_reached upTo.split, oldest ▸ least, most⟩
    · intro fault undated
      rw [run, undated]
      rfl
    · intro dated detected
      obtain ⟨earlier, later, cut⟩ := chain.exists_cutAt dated
      refine ⟨earlier, later, cut, fun result => ?_⟩
      rw [run_eq_iff detected, cut.newer]

end Chain

/-- Calls with gaps between the versions: the second is refused, the third has no probe, and the last
one breaks off after it has written. -/
def unevenCalls : List Step :=
  [{ version := 3, name := "mark", probe := some fun record => record.contains "marker"
     transform := fun record => (record.insert "marker" .null, none) },
    { version := 2, name := "late", transform := fun record => (record, none) },
    { version := 7, name := "show-clock"
      transform := fun record => (record.insert "showClock" (.boolean true), none) },
    { version := 9, name := "unmark", probe := some fun record => !record.contains "marker"
      transform := fun record => (record.erase "marker", some ⟨"marker", "nothing", .boolean⟩) }]

def marked : Record := .ofList [("marker", .boolean true)]

theorem uneven_chain_breaks_off :
    let chain := Chain.built 1 unevenCalls
    chain.steps.map Step.name = ["mark", "show-clock", "unmark"] ∧
    ((Chain.built 1 (unevenCalls.take 1)).offer (unevenCalls[1])).2 = some ⟨"late", 2, 3⟩ ∧
    marked.present? versionKey = none ∧
    (∃ known rest, chain.KnownUpTo marked known rest ∧ chain.CutAt (chain.reached known) known rest ∧
      chain.reached known = 3) ∧
    chain.run marked = .error ⟨"marker", "nothing", .boolean⟩ ∧
    ∃ earlier later, chain.CutAt 3 earlier later ∧
      chain.Ends 3 later marked (.error ⟨"marker", "nothing", .boolean⟩) := by
  intro chain
  have unstamped : marked.present? versionKey = none := by decide +kernel
  have detected : chain.detect marked = .ok 3 := by decide +kernel
  have ran : chain.run marked = .error ⟨"marker", "nothing", .boolean⟩ := by decide +kernel
  have low : (unevenCalls[1]).version ≤ (Chain.built 1 (unevenCalls.take 1)).current := by
    decide +kernel
  obtain ⟨-, -, calls, -⟩ := Chain.runs_from_first_unknown_step 1 (unevenCalls.take 1)
  obtain ⟨-, -, -, runs⟩ := Chain.runs_from_first_unknown_step 1 unevenCalls
  obtain ⟨dates, -, ends⟩ := runs marked
  obtain ⟨known, rest, upTo, dated, cut, -⟩ := dates unstamped
  have third : chain.reached known = 3 := Except.ok.inj (dated.symm.trans detected)
  obtain ⟨earlier, later, split, results⟩ := ends 3 detected
  refine ⟨by decide +kernel, ?_, unstamped, ⟨known, rest, upTo, cut, third⟩, ran, earlier, later,
    split, (results _).mp ran⟩
  exact congrArg Prod.snd ((calls _).2.1 low)

end StartPage.Migration
