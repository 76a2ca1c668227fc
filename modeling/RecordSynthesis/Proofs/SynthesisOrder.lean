import Mathlib.Data.List.Chain
import RecordSynthesis.Proofs.BaseLinks
import RecordSynthesis.Proofs.Inheritance

/-!
# The order of synthesis

The order holds every declared name once, and every record after its base unless the base is not declared or the record
is on a cycle.
-/

namespace RecordSynthesis

set_option autoImplicit false

open Decl (CompilationUnit Record)

namespace CheckUnit

def IsReady (unit : CompilationUnit) (finished : List String) (name : String) : Prop :=
  ∀ base, unit.Derives name base → unit.Declares base → base ∈ finished ∨ unit.IsOnCycle name

/-- Names in an order in which each is ready when its turn comes. -/
inductive BasesFirst (unit : CompilationUnit) : List String → Prop
  | nil : BasesFirst unit []
  | snoc {names : List String} {name : String} (before : BasesFirst unit names) (declared : unit.Declares name)
      (fresh : name ∉ names) (ready : IsReady unit names name) : BasesFirst unit (names ++ [name])

variable {unit : CompilationUnit}

theorem BasesFirst.declares {names : List String} (h : BasesFirst unit names) : ∀ name ∈ names, unit.Declares name := by
  induction h with
  | nil => simp
  | snoc _ declared _ _ ih =>
    intro other hOther
    rcases List.mem_append.mp hOther with hOther | hOther
    · exact ih other hOther
    · rwa [List.mem_singleton.mp hOther]

def IsWay (unit : CompilationUnit) (path : List String) : Prop :=
  path.IsChain fun above below => unit.Derives below above

theorem IsWay.reaches {path : List String} {top : String} (way : IsWay unit (top :: path)) :
    ∀ name ∈ top :: path, Relation.ReflTransGen unit.Derives name top := by
  induction path generalizing top with
  | nil =>
    intro name hName
    rw [List.mem_singleton.mp hName]
  | cons next path ih =>
    obtain ⟨hLink, hRest⟩ := List.isChain_cons_cons.mp way
    intro name hName
    rcases List.mem_cons.mp hName with rfl | hName
    · rfl
    · exact (ih hRest name hName).tail hLink

section

variable {path : List String} {name base : String}

/-- On a way up only the base of the record reached last may lie off the way. -/
theorem IsWay.base_mem (way : IsWay unit (name :: path)) {other : String} (mem : other ∈ name :: path)
    (h : unit.Derives other base) : other = name ∨ base ∈ name :: path := by
  induction path generalizing name with
  | nil => exact .inl (List.mem_singleton.mp mem)
  | cons next path ih =>
    obtain ⟨hLink, hRest⟩ := List.isChain_cons_cons.mp way
    rcases List.mem_cons.mp mem with rfl | hMem
    · exact .inl rfl
    · rcases ih hRest hMem with rfl | hBase
      · exact .inr (Option.some.inj (hLink.symm.trans h) ▸ List.mem_cons_self)
      · exact .inr (List.mem_cons_of_mem _ hBase)

/-- All of a way is reached from where it starts. -/
theorem IsWay.reached (way : IsWay unit (path ++ [base])) :
    ∀ other ∈ path ++ [base], Relation.ReflTransGen unit.Derives base other := by
  induction path with
  | nil =>
    intro other hOther
    rw [List.mem_singleton.mp hOther]
  | cons top path ih =>
    intro other hOther
    rcases List.mem_cons.mp hOther with rfl | hOther
    · obtain ⟨next, others, hNext⟩ : ∃ next others, path ++ [base] = next :: others :=
        List.exists_cons_of_ne_nil (by simp)
      rw [List.cons_append, hNext] at way
      have hLink := (List.isChain_cons_cons.mp way).1
      exact (ih (hNext ▸ way.of_cons) next (hNext ▸ List.mem_cons_self)).tail hLink
    · exact ih way.of_cons other hOther

/-- A way up that comes round to one of its records has the cycle of that record in front, and no other. -/
theorem IsWay.isOnCycle_iff (way : IsWay unit (name :: path)) (round : unit.Derives name base)
    (met : base ∈ name :: path) {other : String} (mem : other ∈ name :: path) :
    unit.IsOnCycle other ↔ other ∈ (name :: path).takeWhile (· ≠ base) ++ [base] := by
  obtain ⟨front, back, hSplit, hFront⟩ := List.eq_append_cons_of_mem met
  have hCycle : (name :: path).takeWhile (· ≠ base) ++ [base] = front ++ [base] := by
    have hBefore : ∀ earlier ∈ front, decide (earlier ≠ base) = true := by
      intro earlier hEarlier
      exact decide_eq_true fun hSame => hFront (hSame ▸ hEarlier)
    rw [hSplit, List.takeWhile_append_of_pos hBefore, List.takeWhile_cons_of_neg (by simp), List.append_nil]
  have hWay : IsWay unit (front ++ [base]) := by
    rw [hSplit, List.append_cons] at way
    exact way.left_of_append
  rw [hCycle]
  constructor
  · intro hOther
    obtain ⟨next, hNext, hBack⟩ := Relation.TransGen.head'_iff.mp (hOther.back (way.reaches other mem))
    obtain rfl := Option.some.inj (round.symm.trans hNext)
    obtain ⟨others, hTop⟩ : ∃ others, front ++ [base] = name :: others := by
      cases front <;> cases hSplit <;> exact ⟨_, rfl⟩
    clear hOther mem
    induction hBack with
    | refl => exact List.mem_append_right _ List.mem_cons_self
    | tail _ hLink ih =>
      rw [hTop] at hWay ih ⊢
      rcases hWay.base_mem ih hLink with rfl | hMem
      · obtain rfl := Option.some.inj (round.symm.trans hLink)
        exact hTop ▸ List.mem_append_right _ List.mem_cons_self
      · exact hMem
  · intro hOther
    exact (Relation.TransGen.tail' (way.reaches other mem) round).trans_left (hWay.reached other hOther)

end

/-- A way up through declared records that are not finished. -/
structure Ascent (unit : CompilationUnit) (finished path : List String) : Prop where
  way : IsWay unit path
  declared : ∀ name ∈ path, unit.Declares name
  fresh : Fresh finished path

namespace Ascent

variable {finished path : List String} {name above : String}

theorem single (declared : unit.Declares name) (fresh : name ∉ finished) : Ascent unit finished [name] where
  way := .singleton name
  declared := List.forall_mem_singleton.mpr declared
  fresh := ⟨List.nodup_singleton name, List.forall_mem_singleton.mpr fresh⟩

theorem cons (ascent : Ascent unit finished (name :: path)) (link : unit.Derives name above)
    (declared : unit.Declares above) (off : above ∉ name :: path) (fresh : above ∉ finished) :
    Ascent unit finished (above :: name :: path) where
  way := List.isChain_cons_cons.mpr ⟨link, ascent.way⟩
  declared := List.forall_mem_cons.mpr ⟨declared, ascent.declared⟩
  fresh := ⟨List.nodup_cons.mpr ⟨off, ascent.fresh.1⟩, List.forall_mem_cons.mpr ⟨fresh, ascent.fresh.2⟩⟩

theorem length_le (ascent : Ascent unit finished path) : path.length ≤ unit.records.length :=
  CompilationUnit.length_le_of_nodup ascent.fresh.1 ascent.declared

/-- The way up ends at a record that is ready: its base is finished, or the way has come round to it. -/
theorem isReady (ascent : Ascent unit finished (name :: path))
    (stop : ∀ above, unit.Derives name above → unit.Declares above → above ∈ name :: path ∨ above ∈ finished) :
    IsReady unit finished name := by
  intro above hLink hDeclared
  rcases stop above hLink hDeclared with hPath | hFinished
  · exact .inr (Relation.TransGen.head' hLink (ascent.way.reaches above hPath))
  · exact .inl hFinished

end Ascent

theorem BasesFirst.append_ascent {finished path : List String} (h : BasesFirst unit finished)
    (ascent : Ascent unit finished path) (top : ∀ name ∈ path.head?, IsReady unit finished name) :
    BasesFirst unit (finished ++ path) := by
  induction path generalizing finished with
  | nil => simpa using h
  | cons name path ih =>
    obtain ⟨way, declared, hNodup, fresh⟩ := ascent
    obtain ⟨hName, hPath⟩ := List.nodup_cons.mp hNodup
    have hNext : BasesFirst unit (finished ++ [name]) :=
      h.snoc (declared name List.mem_cons_self) (fresh name List.mem_cons_self) (top name rfl)
    rw [List.append_cons]
    refine ih hNext ⟨way.of_cons, fun other hOther => declared other (List.mem_cons_of_mem _ hOther), hPath, ?_⟩ ?_
    · intro other hOther hFinished
      rcases List.mem_append.mp hFinished with hFinished | hSame
      · exact fresh other (List.mem_cons_of_mem _ hOther) hFinished
      · exact hName (List.mem_singleton.mp hSame ▸ hOther)
    · -- The next name waits for the one just placed.
      intro next hNext base hLink _
      obtain ⟨others, rfl⟩ := List.head?_eq_some_iff.mp hNext
      obtain ⟨hBelow, -⟩ := List.isChain_cons_cons.mp way
      obtain rfl : base = name := Option.some.inj (hLink.symm.trans hBelow)
      exact .inl (List.mem_append_right _ List.mem_cons_self)

theorem climb_stop {finished path : List String} {name : String} (fuel : Nat)
    (stop : ∀ base, unit.Derives name base → base ∈ name :: path ∨ base ∈ finished ∨ ¬unit.Declares base) :
    climb unit finished fuel path name = name :: path := by
  cases fuel with
  | zero => rfl
  | succ fuel =>
    rw [climb]
    split
    · rfl
    · rename_i base hBase
      rw [if_pos]
      have hStop := stop base hBase
      rw [CompilationUnit.declares_iff, ← Option.ne_none_iff_exists', not_not] at hStop
      simpa [or_assoc] using hStop

theorem climb_step {finished path : List String} {name base : String} (fuel : Nat) (link : unit.Derives name base)
    (off : base ∉ name :: path) (fresh : base ∉ finished) (declared : unit.Declares base) :
    climb unit finished (fuel + 1) path name = climb unit finished fuel (name :: path) base := by
  obtain ⟨record, hRecord⟩ := CompilationUnit.declares_iff.mp declared
  rw [climb, show baseOf? unit name = some base from link]
  exact if_neg (by simp [hRecord, List.mem_cons.not.mp off, fresh])

/-- Climbing goes up as far as there is something to wait for: what it comes to last is ready. -/
theorem climb_ascent (finished : List String) (fuel : Nat) (path : List String) (name : String)
    (ascent : Ascent unit finished (name :: path)) (enough : path.length + fuel = unit.records.length) :
    Ascent unit finished (climb unit finished fuel path name) ∧
      name :: path ⊆ climb unit finished fuel path name ∧
      ∀ top ∈ (climb unit finished fuel path name).head?, IsReady unit finished top := by
  induction fuel generalizing path name with
  | zero =>
    have hLength := ascent.length_le
    rw [List.length_cons] at hLength
    omega
  | succ fuel ih =>
    by_cases hStop : ∀ above, unit.Derives name above → above ∈ name :: path ∨ above ∈ finished ∨ ¬unit.Declares above
    · rw [climb_stop _ hStop]
      refine ⟨ascent, List.Subset.refl _, ?_⟩
      rintro top ⟨⟩
      refine ascent.isReady fun above hLink hDeclared => ?_
      exact (hStop above hLink).imp_right fun h => h.resolve_right (not_not_intro hDeclared)
    · simp only [not_forall, not_or, not_not] at hStop
      obtain ⟨above, hLink, hPath, hFinished, hDeclared⟩ := hStop
      rw [climb_step fuel hLink hPath hFinished hDeclared]
      obtain ⟨hAscent, hKept, hTop⟩ := ih (name :: path) above (ascent.cons hLink hDeclared hPath hFinished)
        (by rw [List.length_cons]; omega)
      exact ⟨hAscent, fun other hOther => hKept (List.mem_cons_of_mem _ hOther), hTop⟩

theorem mem_foldl_names (records : List Record) (found : List String) (name : String) :
    name ∈ records.foldl (fun found record => if found.contains record.name then found else found ++ [record.name])
      found ↔ name ∈ found ∨ name ∈ records.map (·.name) := by
  induction records generalizing found with
  | nil => simp
  | cons record records ih =>
    rw [List.foldl_cons, ih, List.map_cons, List.mem_cons, ← or_assoc]
    refine or_congr_left ?_
    split
    · rename_i hFound
      rw [List.contains_iff_mem] at hFound
      exact ⟨.inl, fun h => h.elim id fun hSame => hSame ▸ hFound⟩
    · rw [List.mem_append, List.mem_singleton]

theorem mem_names_iff {name : String} : name ∈ names unit ↔ unit.Declares name :=
  (mem_foldl_names unit.records [] name).trans (or_iff_right List.not_mem_nil)

theorem foldl_climb (starts finished : List String) (declared : ∀ name ∈ starts, unit.Declares name)
    (before : BasesFirst unit finished) :
    let after := starts.foldl
      (fun finished name =>
        if finished.contains name then finished
        else finished ++ climb unit finished unit.records.length [] name)
      finished
    BasesFirst unit after ∧ (∀ name ∈ finished, name ∈ after) ∧ ∀ name ∈ starts, name ∈ after := by
  induction starts generalizing finished with
  | nil => exact ⟨before, fun _ h => h, by simp⟩
  | cons name starts ih =>
    obtain ⟨hName, hStarts⟩ := List.forall_mem_cons.mp declared
    rw [List.foldl_cons]
    split
    · rename_i hFound
      obtain ⟨hFirst, hKept, hAll⟩ := ih finished hStarts before
      exact ⟨hFirst, hKept, List.forall_mem_cons.mpr ⟨hKept name (List.contains_iff_mem.mp hFound), hAll⟩⟩
    · rename_i hFound
      rw [List.contains_iff_mem] at hFound
      obtain ⟨hAscent, hOn, hTop⟩ := climb_ascent finished unit.records.length [] name (.single hName hFound)
        (Nat.zero_add _)
      obtain ⟨hFirst, hKept, hAll⟩ := ih (finished ++ climb unit finished unit.records.length [] name) hStarts
        (before.append_ascent hAscent hTop)
      exact ⟨hFirst, fun other h => hKept other (List.mem_append_left _ h),
        List.forall_mem_cons.mpr ⟨hKept name (List.mem_append_right _ (hOn List.mem_cons_self)), hAll⟩⟩

theorem order_basesFirst (unit : CompilationUnit) : BasesFirst unit (order unit) :=
  (foldl_climb (names unit) [] (fun _ h => mem_names_iff.mp h) .nil).1

theorem mem_order_iff {name : String} : name ∈ order unit ↔ unit.Declares name :=
  ⟨(order_basesFirst unit).declares name,
    fun h => (foldl_climb (names unit) [] (fun _ h => mem_names_iff.mp h) .nil).2.2 name (mem_names_iff.mpr h)⟩

section

variable {record : Record} {name : String}

def note (noted : List String × List String) (record : Record) : List String × List String :=
  if noted.1.contains record.name then (noted.1, noted.2 ++ [record.name]) else (noted.1 ++ [record.name], noted.2)

theorem repeated_eq (unit : CompilationUnit) : repeated unit = (unit.records.foldl note ([], [])).2 := rfl

theorem note_of_mem {noted : List String × List String} (h : record.name ∈ noted.1) :
    note noted record = (noted.1, noted.2 ++ [record.name]) :=
  if_pos (List.contains_iff_mem.mpr h)

theorem note_of_not_mem {noted : List String × List String} (h : record.name ∉ noted.1) :
    note noted record = (noted.1 ++ [record.name], noted.2) :=
  if_neg (by rwa [List.contains_iff_mem])

theorem count_foldl_note_of_mem (records : List Record) (noted : List String × List String) (h : name ∈ noted.1) :
    (records.foldl note noted).2.count name = noted.2.count name + (records.map (·.name)).count name := by
  induction records generalizing noted with
  | nil => simp
  | cons record records ih =>
    rw [List.foldl_cons, List.map_cons, List.count_cons]
    by_cases hFound : record.name ∈ noted.1
    · rw [note_of_mem hFound, ih (noted.1, noted.2 ++ [record.name]) h, List.count_append, List.count_singleton]
      omega
    · have hName : record.name ≠ name := fun hSame => hFound (hSame ▸ h)
      rw [note_of_not_mem hFound, ih _ (List.mem_append_left _ h)]
      simp [hName]

theorem count_foldl_note_of_not_mem (records : List Record) (noted : List String × List String) (h : name ∉ noted.1)
    (declared : name ∈ records.map (·.name)) :
    (records.foldl note noted).2.count name + 1 = noted.2.count name + (records.map (·.name)).count name := by
  induction records generalizing noted with
  | nil => cases declared
  | cons record records ih =>
    rw [List.foldl_cons, List.map_cons]
    by_cases hName : record.name = name
    · subst hName
      rw [note_of_not_mem h, count_foldl_note_of_mem _ _ (List.mem_append_right _ List.mem_cons_self),
        List.count_cons_self, Nat.add_assoc]
    · have hRest := (List.mem_cons.mp declared).resolve_left (Ne.symm hName)
      rw [List.count_cons_of_ne hName]
      by_cases hFound : record.name ∈ noted.1
      · rw [note_of_mem hFound, ih (noted.1, noted.2 ++ [record.name]) h hRest, List.count_append]
        simp [hName]
      · rw [note_of_not_mem hFound, ih _ (by simpa [h] using Ne.symm hName) hRest]

theorem count_repeated (declared : unit.Declares name) :
    (repeated unit).count name + 1 = (unit.records.map (·.name)).count name := by
  have h := count_foldl_note_of_not_mem unit.records ([], []) List.not_mem_nil declared
  rwa [← repeated_eq, List.count_nil, Nat.zero_add] at h

end

end CheckUnit

end RecordSynthesis
