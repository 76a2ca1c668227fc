import RecordSynthesis.Proofs.Account

/-!
# Synthesis in one traversal

The records of a unit can be gone through depth first, each record after the base that it waits for. A record on a cycle
is met again while it still waits, and then all that have come to wait since are on the cycle with it. Every record is
finished once, and what this comes to is the result of checking the unit: the records marked on the way are exactly those
to which their own base links lead back.
-/

namespace RecordSynthesis

set_option autoImplicit false

open Decl (CompilationUnit Record)

/-- How far a traversal has come. -/
structure Traversal where
  finished : List String := []
  /-- The records that were found to be on a cycle. -/
  marked : List String := []
  result : UnitResult

namespace Traversal

def mark (state : Traversal) (names : List String) : Traversal :=
  { state with marked := state.marked ++ names }

def leave (options : SynthesisOptions) (state : Traversal) (record : Record) : Traversal where
  finished := state.finished ++ [record.name]
  marked := state.marked
  result := state.result.add
    (if state.marked.contains record.name then ⟨[], .error (.inheritanceCycle record.name)⟩
      else record.synthesize record.effectiveMembers (record.base.bind state.result.table.get?) options)

/-- Declared names that are not waiting become fewer when one of them starts to wait. -/
theorem length_filter_cons_lt {names waiting : List String} {name : String} (declared : name ∈ names)
    (off : name ∉ waiting) :
    (names.filter fun other => other ∉ name :: waiting).length < (names.filter fun other => other ∉ waiting).length := by
  have hFilter : (names.filter fun other => other ∉ name :: waiting) =
      (names.filter fun other => other ∉ waiting).filter fun other => other ≠ name := by
    rw [List.filter_filter]
    exact List.filter_congr fun other _ => by simp [not_or]
  rw [hFilter, List.length_filter_lt_length_iff_exists]
  exact ⟨name, by simp [declared, off], by simp⟩

/-- Finishes a record, its base first. The names that wait for the record have the latest in front. -/
def visit (unit : CompilationUnit) (options : SynthesisOptions) (waiting : List String) (name : String)
    (_off : name ∉ waiting) (state : Traversal) : Traversal :=
  if state.finished.contains name then state
  else
    match _declared : unit.find? name with
    | none => state
    | some record =>
      match record.base with
      | none => state.leave options record
      | some base =>
        if met : base ∈ name :: waiting then
          (state.mark ((name :: waiting).takeWhile (· ≠ base) ++ [base])).leave options record
        else (visit unit options (name :: waiting) base met state).leave options record
termination_by ((unit.records.map (·.name)).filter fun other => other ∉ waiting).length
decreasing_by
  exact length_filter_cons_lt (CompilationUnit.declares_iff.mpr ⟨record, _declared⟩) _off

def run (unit : CompilationUnit) (options : SynthesisOptions) : Traversal :=
  (CheckUnit.names unit).foldl (fun state name => visit unit options [] name List.not_mem_nil state)
    { result := { faults := (CheckUnit.repeated unit).map .duplicateRecord } }

variable {unit : CompilationUnit} {options : SynthesisOptions} {state : Traversal} {waiting : List String} {name : String}

theorem visit_of_finished (off : name ∉ waiting) (h : name ∈ state.finished) :
    visit unit options waiting name off state = state := by
  rw [visit, if_pos (List.contains_iff_mem.mpr h)]

theorem visit_of_undeclared (off : name ∉ waiting) (h : ¬unit.Declares name) :
    visit unit options waiting name off state = state := by
  fun_cases visit unit options waiting name off state with
  | case1 => rfl
  | case2 => rfl
  | case3 _ _ declared | case4 _ _ declared | case5 _ _ declared =>
    exact absurd (CompilationUnit.declares_iff.mpr ⟨_, declared⟩) h

end Traversal

namespace CheckUnit

variable {unit : CompilationUnit} {path finished : List String} {name : String}

def IsClosed (unit : CompilationUnit) (finished : List String) : Prop :=
  ∀ name ∈ finished, ∀ base, unit.Derives name base → unit.Declares base → base ∈ finished

theorem IsClosed.mem_of_reaches (closed : IsClosed unit finished) {other : String}
    (reached : Relation.ReflTransGen unit.Derives name other) (h : name ∈ finished) (declared : unit.Declares other) :
    other ∈ finished := by
  induction reached with
  | refl => exact h
  | tail _ hLink ih => exact closed _ (ih hLink.declares) _ hLink declared

/-- Where the way up ends at a record whose base is finished or not declared, it meets no cycle. -/
theorem Ascent.not_isOnCycle (ascent : Ascent unit finished (name :: path)) (closed : IsClosed unit finished)
    (stop : ∀ base, unit.Derives name base → base ∈ finished ∨ ¬unit.Declares base) :
    ∀ other ∈ name :: path, ¬unit.IsOnCycle other := by
  intro other hOther hCycle
  have hDeclared := ascent.declared other hOther
  obtain ⟨base, hLink, hBack⟩ := Relation.TransGen.head'_iff.mp (hCycle.back (ascent.way.reaches other hOther))
  rcases stop base hLink with hFinished | hUndeclared
  · exact ascent.fresh.2 other hOther (closed.mem_of_reaches hBack hFinished hDeclared)
  · rcases Relation.reflTransGen_iff_eq_or_transGen.mp hBack with rfl | hBack
    · exact hUndeclared hDeclared
    · obtain ⟨_, hNext, -⟩ := Relation.TransGen.head'_iff.mp hBack
      exact hUndeclared hNext.declares

end CheckUnit

namespace Traversal

open CheckUnit

variable {unit : CompilationUnit} {options : SynthesisOptions} {state after : Traversal} {waiting added : List String}
  {name : String} {record : Record}

/-- From one state to another these names have been finished in turn. The base of each is finished too or still waits,
and of the names that are finished or wait exactly those on a cycle are marked. -/
structure Passes (unit : CompilationUnit) (options : SynthesisOptions) (state : Traversal) (waiting added : List String)
    (after : Traversal) : Prop where
  finished : after.finished = state.finished ++ added
  result : after.result = added.foldl (finish unit options) state.result
  closed : ∀ other ∈ added, ∀ base, unit.Derives other base → unit.Declares base →
    base ∈ state.finished ++ added ∨ base ∈ waiting
  kept : ∀ other ∈ state.marked, other ∈ after.marked
  sound : ∀ other ∈ after.marked, unit.IsOnCycle other
  complete : ∀ other ∈ added ++ waiting, unit.IsOnCycle other → other ∈ after.marked

/-- The record that waits last is finished next. -/
theorem Passes.leave (passes : Passes unit options state (name :: waiting) added after)
    (declared : unit.find? name = some record)
    (ready : ∀ base, unit.Derives name base → unit.Declares base →
      base ∈ state.finished ++ added ∨ base ∈ name :: waiting) :
    Passes unit options state waiting (added ++ [name]) (after.leave options record) := by
  have hName := CompilationUnit.name_of_find? declared
  have hMarked : after.marked.contains record.name = isCyclic unit record.name := by
    rw [Bool.eq_iff_iff, List.contains_iff_mem, isCyclic_iff, hName]
    exact ⟨passes.sound name, passes.complete name (List.mem_append_right _ List.mem_cons_self)⟩
  have hMoved : ∀ base, base ∈ state.finished ++ added ∨ base ∈ name :: waiting →
      base ∈ state.finished ++ (added ++ [name]) ∨ base ∈ waiting := by
    intro base hBase
    rw [← List.append_assoc, List.mem_append, List.mem_singleton]
    rcases hBase with hBase | hBase
    · exact .inl (.inl hBase)
    · exact (List.mem_cons.mp hBase).imp_left .inr
  constructor
  case finished => rw [Traversal.leave, passes.finished, hName, List.append_assoc]
  case result =>
    rw [Traversal.leave, hMarked, List.foldl_append, ← passes.result, List.foldl_cons, List.foldl_nil,
      finish_eq_add declared, attempt]
  case closed =>
    intro other hOther base hLink hBase
    rcases List.mem_append.mp hOther with hOther | hOther
    · exact hMoved base (passes.closed other hOther base hLink hBase)
    · rw [List.mem_singleton.mp hOther] at hLink
      exact hMoved base (ready base hLink hBase)
  case kept => exact passes.kept
  case sound => exact passes.sound
  case complete =>
    intro other hOther
    rw [List.append_assoc] at hOther
    exact passes.complete other hOther

theorem Passes.stay (sound : ∀ other ∈ state.marked, unit.IsOnCycle other)
    (complete : ∀ other ∈ waiting, unit.IsOnCycle other → other ∈ state.marked) :
    Passes unit options state waiting [] state where
  finished := (List.append_nil _).symm
  result := rfl
  closed := fun _ hOther => absurd hOther List.not_mem_nil
  kept := fun _ hOther => hOther
  sound := sound
  complete := complete

/-- A record whose base needs no visit is finished, and no record that waits for it is on a cycle. -/
theorem passes_of_stop (ascent : Ascent unit state.finished (name :: waiting)) (closed : IsClosed unit state.finished)
    (sound : ∀ other ∈ state.marked, unit.IsOnCycle other) (declared : unit.find? name = some record)
    (stop : ∀ base, unit.Derives name base → base ∈ state.finished ∨ ¬unit.Declares base) :
    Passes unit options state waiting [name] (state.leave options record) := by
  have hStay : Passes unit options state (name :: waiting) [] state :=
    .stay sound fun other hOther hCycle => absurd hCycle (ascent.not_isOnCycle closed stop other hOther)
  refine hStay.leave declared fun base hLink hBase => .inl ?_
  rw [List.append_nil]
  exact (stop base hLink).resolve_right (not_not_intro hBase)

/-- A record whose base waits for it is finished once the cycle is marked. -/
theorem passes_of_round {base : String} (ascent : Ascent unit state.finished (name :: waiting))
    (sound : ∀ other ∈ state.marked, unit.IsOnCycle other) (declared : unit.find? name = some record)
    (link : unit.Derives name base) (met : base ∈ name :: waiting) :
    Passes unit options state waiting [name]
      ((state.mark ((name :: waiting).takeWhile (· ≠ base) ++ [base])).leave options record) := by
  have hRound : ∀ other ∈ name :: waiting,
      unit.IsOnCycle other ↔ other ∈ (name :: waiting).takeWhile (· ≠ base) ++ [base] :=
    fun other => ascent.way.isOnCycle_iff link met
  have hMarked : Passes unit options state (name :: waiting) []
      (state.mark ((name :: waiting).takeWhile (· ≠ base) ++ [base])) := by
    constructor
    case finished => exact (List.append_nil _).symm
    case result => rfl
    case closed => exact fun _ hOther => absurd hOther List.not_mem_nil
    case kept => exact fun other hOther => List.mem_append_left _ hOther
    case sound =>
      intro other hOther
      rcases List.mem_append.mp hOther with hOther | hOther
      · exact sound other hOther
      · refine (hRound other ?_).mpr hOther
        rcases List.mem_append.mp hOther with hBefore | hBase
        · exact (List.takeWhile_prefix _).subset hBefore
        · rwa [List.mem_singleton.mp hBase]
    case complete => exact fun other hOther hCycle => List.mem_append_right _ ((hRound other hOther).mp hCycle)
  exact hMarked.leave declared fun other hOther _ => .inr (Option.some.inj (link.symm.trans hOther) ▸ met)

/-- A visit finishes the names that a climb from the record adds to those that wait, and nothing else. -/
theorem passes_visit (off : name ∉ waiting) (ascent : Ascent unit state.finished (name :: waiting))
    (closed : IsClosed unit state.finished) (sound : ∀ other ∈ state.marked, unit.IsOnCycle other) (fuel : Nat)
    (enough : waiting.length + fuel = unit.records.length) :
    ∃ added, climb unit state.finished fuel waiting name = added ++ waiting ∧
      Passes unit options state waiting added (visit unit options waiting name off state) := by
  fun_induction visit unit options waiting name off state generalizing fuel with
  | case1 waiting name off finished =>
    exact absurd (List.contains_iff_mem.mp finished) (ascent.fresh.2 name List.mem_cons_self)
  | case2 waiting name off fresh undeclared =>
    obtain ⟨record, hRecord⟩ := CompilationUnit.declares_iff.mp (ascent.declared name List.mem_cons_self)
    rw [undeclared] at hRecord
    cases hRecord
  | case3 waiting name off fresh record declared root =>
    have hTop : ∀ base, ¬unit.Derives name base := by
      intro base hLink
      rw [CompilationUnit.derives_iff_base declared, root] at hLink
      cases hLink
    exact ⟨[name], climb_stop fuel fun base hLink => absurd hLink (hTop base),
      passes_of_stop ascent closed sound declared fun base hLink => absurd hLink (hTop base)⟩
  | case4 waiting name off fresh record declared base derived met =>
    have hLink : unit.Derives name base := (CompilationUnit.derives_iff_base declared).mpr derived
    exact ⟨[name], climb_stop fuel fun other hOther => .inl (Option.some.inj (hLink.symm.trans hOther) ▸ met),
      passes_of_round ascent sound declared hLink met⟩
  | case5 waiting name off fresh record declared base derived met ih =>
    have hLink : unit.Derives name base := (CompilationUnit.derives_iff_base declared).mpr derived
    have hOnly : ∀ other, unit.Derives name other → base = other := by
      intro other hOther
      exact Option.some.inj (hLink.symm.trans hOther)
    by_cases hStop : base ∈ state.finished ∨ ¬unit.Declares base
    · have hVisit : visit unit options (name :: waiting) base met state = state :=
        hStop.elim (visit_of_finished met) (visit_of_undeclared met)
      rw [hVisit]
      exact ⟨[name], climb_stop fuel fun other hOther => .inr (hOnly other hOther ▸ hStop),
        passes_of_stop ascent closed sound declared fun other hOther => hOnly other hOther ▸ hStop⟩
    · rw [not_or, not_not] at hStop
      obtain ⟨hFresh, hDeclared⟩ := hStop
      have hAscent := ascent.cons hLink hDeclared met hFresh
      have hLength := hAscent.length_le
      rw [List.length_cons, List.length_cons] at hLength
      obtain ⟨fuel, rfl⟩ : ∃ less, fuel = less + 1 := Nat.exists_eq_add_one.mpr (by omega)
      have hEnough : (name :: waiting).length + fuel = unit.records.length := by
        rw [List.length_cons]
        omega
      obtain ⟨added, hClimb, hPasses⟩ := ih hAscent fuel hEnough
      have hBase : base ∈ added := by
        have hClimbed := (climb_ascent state.finished fuel (name :: waiting) base hAscent hEnough).2.1 List.mem_cons_self
        rw [hClimb] at hClimbed
        exact (List.mem_append.mp hClimbed).resolve_right met
      refine ⟨added ++ [name], ?_, hPasses.leave declared fun other hOther _ => .inl ?_⟩
      · rw [climb_step fuel hLink met hFresh hDeclared, hClimb, List.append_assoc]
        rfl
      · exact List.mem_append_right _ (hOnly other hOther ▸ hBase)

theorem Passes.isClosed (passes : Passes unit options state [] added after) (closed : IsClosed unit state.finished) :
    IsClosed unit after.finished := by
  intro other hOther base hLink hBase
  rw [passes.finished] at hOther ⊢
  rcases List.mem_append.mp hOther with hOther | hOther
  · exact List.mem_append_left _ (closed other hOther base hLink hBase)
  · exact (passes.closed other hOther base hLink hBase).resolve_right List.not_mem_nil

theorem Passes.trans {further : List String} {final : Traversal} (passes : Passes unit options state [] added after)
    (others : Passes unit options after [] further final) : Passes unit options state [] (added ++ further) final := by
  constructor
  case finished => rw [others.finished, passes.finished, List.append_assoc]
  case result => rw [others.result, passes.result, List.foldl_append]
  case closed =>
    intro other hOther base hLink hBase
    rw [← List.append_assoc, ← passes.finished]
    rcases List.mem_append.mp hOther with hOther | hOther
    · have hEarlier := passes.closed other hOther base hLink hBase
      rw [← passes.finished] at hEarlier
      exact hEarlier.imp_left (List.mem_append_left _)
    · exact others.closed other hOther base hLink hBase
  case kept => exact fun other hOther => others.kept other (passes.kept other hOther)
  case sound => exact others.sound
  case complete =>
    intro other hOther hCycle
    rw [List.append_nil] at hOther
    rcases List.mem_append.mp hOther with hOther | hOther
    · exact others.kept other (passes.complete other (List.mem_append_left _ hOther) hCycle)
    · exact others.complete other (List.mem_append_left _ hOther) hCycle

/-- Visiting names one after the other passes through the order in which they are synthesized. -/
theorem foldl_visit (options : SynthesisOptions) (starts : List String) (state : Traversal)
    (declared : ∀ name ∈ starts, unit.Declares name) (closed : IsClosed unit state.finished)
    (sound : ∀ other ∈ state.marked, unit.IsOnCycle other) :
    ∃ added,
      Passes unit options state [] added
        (starts.foldl (fun state name => visit unit options [] name List.not_mem_nil state) state) ∧
      starts.foldl
        (fun finished name =>
          if finished.contains name then finished
          else finished ++ climb unit finished unit.records.length [] name)
        state.finished = state.finished ++ added := by
  induction starts generalizing state with
  | nil => exact ⟨[], .stay sound fun _ hOther => absurd hOther List.not_mem_nil, (List.append_nil _).symm⟩
  | cons name starts ih =>
    obtain ⟨hName, hStarts⟩ := List.forall_mem_cons.mp declared
    simp only [List.foldl_cons]
    by_cases hFinished : name ∈ state.finished
    · rw [visit_of_finished _ hFinished, if_pos (List.contains_iff_mem.mpr hFinished)]
      exact ih state hStarts closed sound
    · obtain ⟨first, hClimb, hFirst⟩ : ∃ first,
          climb unit state.finished unit.records.length [] name = first ++ [] ∧
            Passes unit options state [] first (visit unit options [] name List.not_mem_nil state) :=
        passes_visit _ (.single hName hFinished) closed sound _ (Nat.zero_add _)
      obtain ⟨others, hOthers, hOrder⟩ := ih _ hStarts (hFirst.isClosed closed) hFirst.sound
      refine ⟨first ++ others, hFirst.trans hOthers, ?_⟩
      rw [if_neg (by rwa [List.contains_iff_mem]), hClimb, List.append_nil, ← hFirst.finished, hOrder, hFirst.finished,
        List.append_assoc]

/-- A traversal finishes the records in the order in which they are synthesized, to the result of checking the unit, and
marks the records on cycles. -/
theorem passes_run (unit : CompilationUnit) (options : SynthesisOptions) :
    (run unit options).finished = order unit ∧ (run unit options).result = checkUnit unit options ∧
      ∀ name, name ∈ (run unit options).marked ↔ unit.IsOnCycle name := by
  obtain ⟨added, hPasses, hOrder⟩ := foldl_visit options (names unit)
    { result := { faults := (repeated unit).map .duplicateRecord } } (fun _ h => mem_names_iff.mp h)
    (fun _ h => absurd h List.not_mem_nil) (fun _ h => absurd h List.not_mem_nil)
  obtain rfl : order unit = added := hOrder
  refine ⟨hPasses.finished, hPasses.result, fun name => ⟨hPasses.sound name, fun hCycle => ?_⟩⟩
  exact hPasses.complete name (List.mem_append_left _ (mem_order_iff.mpr hCycle.declares)) hCycle

end Traversal

end RecordSynthesis
