import RecordSynthesis.Proofs.StructuralEquality

/-!
# Hash codes

The hash of an instance goes over the state of its runtime record and of those above it, while typed equality of a record
looks at no state below that record. So instances that a record finds equal have one hash as long as nothing below it has
state, and not otherwise: then some instances are equal to it and hash apart.
-/

namespace RecordSynthesis

set_option autoImplicit false

open Code
open Decl (CompilationUnit Record)

def RecordTable.root (table : RecordTable) (set : MemberSet) : MemberSet :=
  (table.levels set).headD set

namespace RecordTable

variable {unit : CompilationUnit} {options : SynthesisOptions} {table : RecordTable} {set runtime : MemberSet}

theorem headD_levels (table : RecordTable) (set runtime : MemberSet) (others : List MemberSet) :
    (table.levels set ++ others).headD runtime = (table.levels set).headD set := by
  cases hLevels : table.levels set with
  | nil => exact absurd hLevels (List.ne_nil_of_mem (table.mem_levels_self set))
  | cons first rest => rfl

theorem Grown.root_eq (grown : table.Grown unit options) (mem : runtime ∈ table.sets)
    (under : set ∈ table.levels runtime) : table.root runtime = table.root set := by
  rw [root, grown.levels_eq_append_beneath mem under]
  exact table.headD_levels set runtime _

/-- If nothing below a record has state, an instance has just the state of the record. -/
theorem Grown.state_eq_of_bare (grown : table.Grown unit options) (mem : runtime ∈ table.sets)
    (under : set ∈ table.levels runtime) (bare : ∀ level ∈ table.beneath set runtime, level.state = []) :
    table.state runtime = table.state set := by
  have hBeneath : (table.beneath set runtime).flatMap MemberSet.visits = [] := by
    refine List.flatMap_eq_nil_iff.mpr fun level hLevel => ?_
    rw [MemberSet.visits, bare level hLevel, List.map_nil]
  rw [state, grown.levels_eq_append_beneath mem under, List.flatMap_append, hBeneath, List.append_nil, state]

end RecordTable

namespace Code.Program

def hashes (program : Program) (heap : Heap) (set : MemberSet) (object : Object) : List Int32 :=
  (program.table.state set).map fun visit =>
    program.interpretation.hash heap visit.1 visit.2.type (object.read visit.2)

/-- What the hash of an instance of a record comes to. -/
def digest (program : Program) (heap : Heap) (set : MemberSet) (object : Object) : Int32 :=
  (program.hashes heap set object).foldl program.interpretation.combine
    (program.interpretation.typeHash (program.table.root set).selfType)

def HashesLawfully (program : Program) (typing : Typing) (heap : Heap) : Prop :=
  ∀ set ∈ program.table.sets, ∀ visit ∈ set.visits, ∀ left right : Value,
    typing.inhabits heap visit.2.type left → typing.inhabits heap visit.2.type right →
    program.interpretation.equals heap visit.1 visit.2.type left right = true →
    program.interpretation.hash heap visit.1 visit.2.type left =
      program.interpretation.hash heap visit.1 visit.2.type right

theorem eval_foldl_combineHashes {program : Program} {invoke : Function → Option Value → List Value → Run Outcome}
    {frame : Frame} {heap : Heap} {α : Type} {term : α → Expr} {code : α → Int32} (items : List α)
    (h : ∀ item ∈ items, program.eval invoke frame (term item) heap = .ok (.int (code item), heap)) (seed : Expr)
    (n : Int32) (hSeed : program.eval invoke frame seed heap = .ok (.int n, heap)) :
    program.eval invoke frame (items.foldl (fun hash item => .combineHashes hash (term item)) seed) heap =
      .ok (.int (items.foldl (fun hash item => program.interpretation.combine hash (code item)) n), heap) := by
  induction items generalizing seed n with
  | nil => exact hSeed
  | cons item items ih =>
    obtain ⟨hItem, hItems⟩ := List.forall_mem_cons.mp h
    exact ih hItems _ _ (eval_combineHashes hSeed hItem)

variable {unit : CompilationUnit} {options : SynthesisOptions} {program : Program} {typing : Typing} {heap : Heap}
  {set above : MemberSet} {value : Value} {object : Object} {record : Record} {copy : Option CopyConstructor}

theorem digest_of_none (origin : RecordTable.Origin unit options program.table set record none copy) :
    program.digest heap set object = set.state.foldl
      (fun hash state => program.interpretation.combine hash (program.interpretation.hash heap state.equality
        state.member.type (object.read (set.stateField state))))
      (program.interpretation.typeHash set.selfType) := by
  rw [digest, hashes, origin.state_eq_of_none, MemberSet.visits, List.map_map, List.foldl_map, RecordTable.root,
    origin.levels_eq_of_none]
  rfl

theorem digest_of_some (origin : RecordTable.Origin unit options program.table set record (some above) copy) :
    program.digest heap set object = set.state.foldl
      (fun hash state => program.interpretation.combine hash (program.interpretation.hash heap state.equality
        state.member.type (object.read (set.stateField state))))
      (program.digest heap above object) := by
  have hRoot : program.table.root set = program.table.root above := by
    rw [RecordTable.root, RecordTable.root, origin.levels_eq_of_some]
    exact program.table.headD_levels above _ _
  rw [digest, hashes, origin.state_eq_of_some, List.map_append, List.foldl_append, hRoot, MemberSet.visits,
    List.map_map, List.foldl_map, digest, hashes]
  rfl

theorem eval_memberHash_own (found : heap.object? value = some object) (fills : program.Fills typing heap set object)
    {invoke : Function → Option Value → List Value → Run Outcome} :
    ∀ state ∈ set.state, program.eval invoke ⟨some value, []⟩
        (.memberHash state.equality state.member.type (.loadField .this (set.stateField state))) heap =
      .ok (.int (program.interpretation.hash heap state.equality state.member.type
        (object.read (set.stateField state))), heap) := by
  intro state hState
  exact eval_memberHash (eval_loadField (eval_this rfl) found (fills.read?_eq (program.table.mem_levels_self set) hState))

/-- The hash of an instance, computed from a record on upwards. -/
theorem invoke_hash (grown : program.table.Grown unit options) (mem : set ∈ program.table.sets)
    (synthesized : ∀ level ∈ program.table.levels set, level.equality.hash = .synthesized)
    (found : heap.object? value = some object) (fills : program.Fills typing heap set object) :
    ∀ depth > set.inheritanceDepth, program.invoke depth set.lowerHash (some value) [] heap =
      .ok (.returned (.int (program.digest heap set object)), heap) := by
  refine grown.levels_induction mem (P := fun level depth => program.invoke depth level.lowerHash (some value) [] heap =
    .ok (.returned (.int (program.digest heap level object)), heap)) ?_ ?_
  · intro level hLevel record copy depth origin
    have hSeed : level.hashSeed = .typeHash level.selfType := by
      rw [origin.made]
      rfl
    rw [invoke, MemberSet.lowerHash, hSeed, digest_of_none origin]
    exact execAll_exit (eval_foldl_combineHashes _ (eval_memberHash_own found (fills.of_under grown mem hLevel)) _ _
      eval_typeHash)
  · intro level hLevel record above copy depth aboveLevel origin hAbove
    have hSeed : level.hashSeed = .callBase (hashRef above.selfType) [] := by
      rw [origin.made]
      rfl
    have hCall : program.eval (program.invoke depth) ⟨some value, []⟩ (.callBase (hashRef above.selfType) []) heap =
        .ok (.int (program.digest heap above object), heap) := by
      have aboveMem := grown.levels_subset mem above aboveLevel
      obtain ⟨_, _, _, aboveOrigin⟩ := grown.exists_origin aboveMem
      rw [eval_callBase rfl evalAll_nil, grown.own?_eq aboveMem false rfl,
        aboveOrigin.method?_hash above.selfType (synthesized above aboveLevel)]
      exact callValue_ok hAbove
    rw [invoke, MemberSet.lowerHash, hSeed, digest_of_some origin]
    exact execAll_exit (eval_foldl_combineHashes _ (eval_memberHash_own found (fills.of_under grown mem hLevel)) _ _
      hCall)

/-- A virtual call of the hash runs the code of the runtime record. -/
theorem answers_hash (grown : program.table.Grown unit options) {runtime : MemberSet}
    (hInstance : program.IsInstance heap runtime value object) (under : set ∈ program.table.levels runtime)
    (synthesized : ∀ level ∈ program.table.levels runtime, level.equality.hash = .synthesized)
    (fills : program.Fills typing heap runtime object) :
    program.Answers value (hashRef set.selfType) [] heap (.int (program.digest heap runtime object)) heap := by
  refine ⟨runtime.inheritanceDepth + 1, fun depth hDepth => ?_⟩
  have hCode := grown.dispatch?_hash hInstance.mem under (synthesized runtime (program.table.mem_levels_self runtime))
  exact send_ok hInstance.found hInstance.owner hCode
    (invoke_hash grown hInstance.mem synthesized hInstance.found fills depth hDepth)

/-- Without state below a record, instances that agree for the record have one hash. -/
theorem digest_eq_of_agree (grown : program.table.Grown unit options) {left right : MemberSet}
    {leftObject rightObject : Object} (leftMem : left ∈ program.table.sets) (rightMem : right ∈ program.table.sets)
    (leftUnder : set ∈ program.table.levels left) (rightUnder : set ∈ program.table.levels right)
    (bare : ∀ level ∈ program.table.beneath set left ++ program.table.beneath set right, level.state = [])
    (lawful : program.HashesLawfully typing heap) (leftFills : program.Fills typing heap left leftObject)
    (rightFills : program.Fills typing heap right rightObject)
    (hAgree : program.agree heap set leftObject rightObject = true) :
    program.digest heap left leftObject = program.digest heap right rightObject := by
  have leftState := grown.state_eq_of_bare leftMem leftUnder fun level h => bare level (List.mem_append_left _ h)
  have rightState := grown.state_eq_of_bare rightMem rightUnder fun level h => bare level (List.mem_append_right _ h)
  have hHashes : program.hashes heap left leftObject = program.hashes heap right rightObject := by
    rw [hashes, hashes, leftState, rightState]
    refine List.map_congr_left fun visit hVisit => ?_
    obtain ⟨level, hLevel, hOwn⟩ := List.mem_flatMap.mp hVisit
    refine lawful level ?_ visit hOwn _ _ ?_ ?_ (List.all_eq_true.mp hAgree visit hVisit)
    · exact grown.levels_subset leftMem level (grown.levels_trans leftMem leftUnder hLevel)
    · exact leftFills.typed visit (leftState ▸ hVisit)
    · exact rightFills.typed visit (rightState ▸ hVisit)
  rw [digest, digest, hHashes, grown.root_eq leftMem leftUnder, grown.root_eq rightMem rightUnder]

end Code.Program

namespace RecordTable

def instanceWith (table : RecordTable) (set : MemberSet) (values : FieldRef → Value) : Object where
  type := set.selfType
  fields := (table.state set).map fun visit => (visit.2, values visit.2)

def Respects (values : FieldRef → Value) : Prop :=
  ∀ field other : FieldRef, field.names other = true → values field = values other

theorem read?_instanceWith {table : RecordTable} {set : MemberSet} {values : FieldRef → Value}
    (respects : Respects values) {visit : EqualityStrategy × FieldRef} (mem : visit ∈ table.state set) :
    (table.instanceWith set values).read? visit.2 = some (values visit.2) := by
  rw [Object.read?, instanceWith]
  cases hFound : ((table.state set).map fun visit => (visit.2, values visit.2)).find? fun entry =>
      entry.1.names visit.2 with
  | none =>
    have hNone := List.find?_eq_none.mp hFound _ (List.mem_map_of_mem mem)
    simp [FieldRef.names] at hNone
  | some entry =>
    obtain ⟨other, -, rfl⟩ := List.mem_map.mp (List.mem_of_find?_eq_some hFound)
    have hNames := List.find?_some hFound
    rw [Option.map_some, respects _ _ hNames]

def marks (table : RecordTable) (set : MemberSet) (field : FieldRef) : Value :=
  if table.isUnder set field.owner then .token 0 else .token 1

theorem respects_marks (table : RecordTable) (set : MemberSet) : Respects (table.marks set) := by
  intro field other h
  have hOwner : field.owner.same other.owner = true := (Bool.and_eq_true_iff.mp h).1
  have hUnder : table.isUnder set field.owner = table.isUnder set other.owner :=
    List.any_congr rfl fun level => Bool.eq_iff_iff.mpr (Ty.same_congr hOwner _)
  rw [marks, marks, hUnder]

variable {unit : CompilationUnit} {options : SynthesisOptions} {table : RecordTable} {set left right : MemberSet}

theorem marks_of_state {visit : EqualityStrategy × FieldRef} (mem : visit ∈ table.state set) :
    table.marks set visit.2 = .token 0 := by
  obtain ⟨level, hLevel, hVisit⟩ := List.mem_flatMap.mp mem
  obtain ⟨state, -, rfl⟩ := List.mem_map.mp hVisit
  exact if_pos (isUnder_of_mem hLevel)

theorem Grown.marks_of_beneath (grown : table.Grown unit options) (mem : left ∈ table.sets)
    (under : set ∈ table.levels left) {level : MemberSet} (hLevel : level ∈ table.beneath set left)
    (state : StateMember) : table.marks set (level.stateField state) = .token 1 := by
  have hSplit := grown.levels_eq_append_beneath mem under
  refine if_neg ?_
  rw [isUnder, List.any_eq_true]
  rintro ⟨other, hOther, hSame⟩
  have inTable := grown.levels_subset mem
  rw [hSplit] at inTable
  obtain rfl := grown.eq_of_same (inTable other (List.mem_append_left _ hOther))
    (inTable level (List.mem_append_right _ hLevel)) hSame
  have hNodup := grown.levels_nodup mem
  rw [hSplit] at hNodup
  exact (List.nodup_append.mp hNodup).2.2 _ hOther _ hLevel rfl

theorem Grown.bare_of_unmarked (grown : table.Grown unit options) (mem : left ∈ table.sets)
    (under : set ∈ table.levels left) (h : ∀ visit ∈ table.state left, table.marks set visit.2 = .token 0) :
    ∀ level ∈ table.beneath set left, level.state = [] := by
  intro level hLevel
  refine List.eq_nil_iff_forall_not_mem.mpr fun state hState => ?_
  have hUnder : level ∈ table.levels left := by
    rw [grown.levels_eq_append_beneath mem under]
    exact List.mem_append_right _ hLevel
  have hMark := h _ (mem_state hUnder hState)
  rw [grown.marks_of_beneath mem under hLevel state] at hMark
  cases hMark

end RecordTable

namespace Code

/-- Values are equal if they are one value, every value but one particular token has the hash 1, and hashes combine to
the first that is not 0. -/
def Interpretation.marking : Interpretation where
  equals _ _ _ left right := left = right
  hash _ _ _ value := if value = .token 0 then 0 else 1
  combine left right := if left = 0 then right else left
  typeHash _ := 0
  text _ _ _ := ""
  admits _ _ := true

theorem Interpretation.foldl_marking_eq_zero_iff (hashes : List Int32) (seed : Int32) :
    hashes.foldl Interpretation.marking.combine seed = 0 ↔ seed = 0 ∧ ∀ hash ∈ hashes, hash = 0 := by
  induction hashes generalizing seed with
  | nil => simp
  | cons hash hashes ih =>
    rw [List.foldl_cons, ih, List.forall_mem_cons, ← and_assoc]
    refine and_congr_left' ?_
    by_cases hSeed : seed = 0 <;> simp [marking, hSeed]

end Code

namespace Code.Program

variable {unit : CompilationUnit} {options : SynthesisOptions} {table : RecordTable} {set left right : MemberSet}
  {values others : FieldRef → Value}

theorem fills_instanceWith (respects : RecordTable.Respects values) (interpretation : Interpretation) (heap : Heap) :
    Fills ⟨table, interpretation⟩ .unchecked heap set (table.instanceWith set values) :=
  ⟨fun visit h => by rw [RecordTable.read?_instanceWith respects h]; rfl, fun _ _ => trivial⟩

theorem read_instanceWith (respects : RecordTable.Respects values) {visit : EqualityStrategy × FieldRef}
    (mem : visit ∈ table.state set) : (table.instanceWith set values).read visit.2 = values visit.2 := by
  rw [Object.read, RecordTable.read?_instanceWith respects mem, Option.getD_some]

theorem isInstance_instanceWith (grown : table.Grown unit options) (mem : set ∈ table.sets)
    {interpretation : Interpretation} {heap : Heap} {value : Value}
    (found : heap.object? value = some (table.instanceWith set values)) :
    IsInstance ⟨table, interpretation⟩ heap set value (table.instanceWith set values) :=
  ⟨found, grown.owner?_selfType mem⟩

theorem wellFormed_instancesWith (grown : table.Grown unit options) (interpretation : Interpretation) {heap : Heap}
    (h : ∀ object ∈ heap, ∃ set ∈ table.sets, ∃ values, RecordTable.Respects values ∧
      object = table.instanceWith set values) : WellFormed ⟨table, interpretation⟩ .unchecked heap := by
  intro object hObject owner hOwner
  obtain ⟨set, mem, values, respects, rfl⟩ := h object hObject
  obtain rfl : set = owner := Option.some.inj ((grown.owner?_selfType mem).symm.trans hOwner)
  exact fills_instanceWith respects interpretation heap

theorem digest_marking_eq_zero_iff (respects : RecordTable.Respects values) (heap : Heap) :
    digest ⟨table, .marking⟩ heap set (table.instanceWith set values) = 0 ↔
      ∀ visit ∈ table.state set, values visit.2 = .token 0 := by
  rw [digest, Interpretation.foldl_marking_eq_zero_iff, hashes, List.forall_mem_map]
  refine (and_iff_right rfl).trans (forall₂_congr fun visit hVisit => ?_)
  rw [read_instanceWith respects hVisit]
  simp [Interpretation.marking]

end Code.Program

/-- Whatever members hold, and however values compare, hash and combine: as long as equal member values have one hash, so
have any two instances of two records that a record above both finds equal. -/
def RecordTable.HashesConsistently (table : RecordTable) (set left right : MemberSet) : Prop :=
  ∀ (interpretation : Interpretation) (typing : Typing) (heap : Heap),
    let program : Program := ⟨table, interpretation⟩
    program.WellFormed typing heap → program.HashesLawfully typing heap →
    ∀ (a b : Value) (first second : Object), program.IsInstance heap left a first → program.IsInstance heap right b second →
    program.Returns set.lowerTypedEquals (some a) [b] heap (.bool true) heap →
    ∃ hash, program.Answers a (hashRef set.selfType) [] heap (.int hash) heap ∧
      program.Answers b (hashRef set.selfType) [] heap (.int hash) heap

/-- Consistent hashes do not tell instances apart that hold the same values in all state of the record. -/
theorem RecordTable.HashesConsistently.digest_eq {unit : CompilationUnit} {options : SynthesisOptions}
    {table : RecordTable} {set left right : MemberSet} {values others : FieldRef → Value}
    (consistent : table.HashesConsistently set left right) (grown : table.Grown unit options)
    (leftMem : left ∈ table.sets) (rightMem : right ∈ table.sets) (leftUnder : set ∈ table.levels left)
    (rightUnder : set ∈ table.levels right)
    (equals : ∀ level ∈ table.levels set, level.equality.typedEquals = .synthesized)
    (hashes : ∀ level ∈ table.levels left ++ table.levels right, level.equality.hash = .synthesized)
    (respects : Respects values) (respects' : Respects others)
    (same : ∀ visit ∈ table.state set, values visit.2 = others visit.2) :
    let heap : Heap := [table.instanceWith left values, table.instanceWith right others]
    Program.digest ⟨table, .marking⟩ heap left (table.instanceWith left values) =
      Program.digest ⟨table, .marking⟩ heap right (table.instanceWith right others) := by
  intro heap
  let program : Program := ⟨table, .marking⟩
  have leftInstance : program.IsInstance heap left (.reference 0) (table.instanceWith left values) :=
    Program.isInstance_instanceWith grown leftMem rfl
  have rightInstance : program.IsInstance heap right (.reference 1) (table.instanceWith right others) :=
    Program.isInstance_instanceWith grown rightMem rfl
  have leftFills : program.Fills .unchecked heap left (table.instanceWith left values) :=
    Program.fills_instanceWith respects _ heap
  have rightFills : program.Fills .unchecked heap right (table.instanceWith right others) :=
    Program.fills_instanceWith respects' _ heap
  have wellFormed : program.WellFormed .unchecked heap :=
    Program.wellFormed_instancesWith grown .marking (List.forall_mem_cons.mpr
      ⟨⟨left, leftMem, values, respects, rfl⟩,
        List.forall_mem_singleton.mpr ⟨right, rightMem, others, respects', rfl⟩⟩)
  have lawful : program.HashesLawfully .unchecked heap := by
    intro owner _ visit _ first second _ _ hSame
    rw [of_decide_eq_true hSame]
  have hAgree : program.agree heap set (table.instanceWith left values) (table.instanceWith right others) = true := by
    refine List.all_eq_true.mpr fun visit hVisit => ?_
    rw [Program.read_instanceWith respects (grown.state_subset leftMem leftUnder hVisit),
      Program.read_instanceWith respects' (grown.state_subset rightMem rightUnder hVisit)]
    exact decide_eq_true (same visit hVisit)
  have setMem := grown.levels_subset leftMem set leftUnder
  have hEquals : program.Returns set.lowerTypedEquals (some (.reference 0)) [.reference 1] heap (.bool true) heap := by
    rw [← hAgree]
    exact ⟨_, Program.invoke_typedEquals grown setMem equals leftInstance.found
      (leftFills.of_under grown leftMem leftUnder) rightInstance rightUnder
      (rightFills.of_under grown rightMem rightUnder)⟩
  obtain ⟨hash, leftAnswer, rightAnswer⟩ :=
    consistent .marking .unchecked heap wellFormed lawful _ _ _ _ leftInstance rightInstance hEquals
  have leftHash := Program.answers_hash grown leftInstance leftUnder
    (fun level h => hashes level (List.mem_append_left _ h)) leftFills
  have rightHash := Program.answers_hash grown rightInstance rightUnder
    (fun level h => hashes level (List.mem_append_right _ h)) rightFills
  have leftSame := (leftHash.unique leftAnswer).1
  have rightSame := (rightHash.unique rightAnswer).1
  exact Value.int.inj (leftSame.trans rightSame.symm)

/-- Instances of two records that a record above both finds equal are sure to have one hash exactly if no record below it,
down to the two, has state. -/
theorem equal_hashes_iff (unit : CompilationUnit) (options : SynthesisOptions) (set left right : MemberSet)
    (leftMem : left ∈ (checkUnit unit options).table.sets) (rightMem : right ∈ (checkUnit unit options).table.sets)
    (leftUnder : set ∈ (checkUnit unit options).table.levels left)
    (rightUnder : set ∈ (checkUnit unit options).table.levels right)
    (equals : ∀ level ∈ (checkUnit unit options).table.levels set, level.equality.typedEquals = .synthesized)
    (hashes : ∀ level ∈ (checkUnit unit options).table.levels left ++ (checkUnit unit options).table.levels right,
      level.equality.hash = .synthesized) :
    let table := (checkUnit unit options).table
    table.HashesConsistently set left right ↔
      ∀ level ∈ table.beneath set left ++ table.beneath set right, level.state = [] := by
  intro table
  have grown : table.Grown unit options := checkUnit_grown unit options
  have setMem := grown.levels_subset leftMem set leftUnder
  constructor
  · intro consistent
    -- An instance with marks below the record is equal to one without any, and that one hashes to 0.
    have unmarked : RecordTable.Respects fun _ => .token 0 := fun _ _ _ => rfl
    have marked := table.respects_marks set
    have leftSame := consistent.digest_eq grown leftMem rightMem leftUnder rightUnder equals hashes marked unmarked
      fun visit hVisit => RecordTable.marks_of_state hVisit
    have rightSame := consistent.digest_eq grown leftMem rightMem leftUnder rightUnder equals hashes unmarked marked
      fun visit hVisit => (RecordTable.marks_of_state hVisit).symm
    have leftZero := Eq.trans leftSame ((Program.digest_marking_eq_zero_iff unmarked _).mpr fun _ _ => rfl)
    have rightZero := Eq.trans (Eq.symm rightSame) ((Program.digest_marking_eq_zero_iff unmarked _).mpr fun _ _ => rfl)
    have leftBare := (Program.digest_marking_eq_zero_iff marked _).mp leftZero
    have rightBare := (Program.digest_marking_eq_zero_iff marked _).mp rightZero
    refine List.forall_mem_append.mpr ⟨?_, ?_⟩
    · exact grown.bare_of_unmarked leftMem leftUnder leftBare
    · exact grown.bare_of_unmarked rightMem rightUnder rightBare
  · intro bare interpretation typing heap program wellFormed lawful a b first second leftInstance rightInstance hEquals
    have leftFills := wellFormed first (Heap.mem_of_object? leftInstance.found) left leftInstance.owner
    have rightFills := wellFormed second (Heap.mem_of_object? rightInstance.found) right rightInstance.owner
    have hAnswer : program.Returns set.lowerTypedEquals (some a) [b] heap
        (.bool (program.agree heap set first second)) heap :=
      ⟨_, Program.invoke_typedEquals grown setMem equals leftInstance.found (leftFills.of_under grown leftMem leftUnder)
        rightInstance rightUnder (rightFills.of_under grown rightMem rightUnder)⟩
    have hAgree := Value.bool.inj (hAnswer.unique hEquals).1
    refine ⟨program.digest heap left first, ?_, ?_⟩
    · exact Program.answers_hash grown leftInstance leftUnder (fun level h => hashes level (List.mem_append_left _ h))
        leftFills
    · rw [Program.digest_eq_of_agree grown leftMem rightMem leftUnder rightUnder bare lawful leftFills rightFills hAgree]
      exact Program.answers_hash grown rightInstance rightUnder (fun level h => hashes level (List.mem_append_right _ h))
        rightFills

/-- A person finds a student of the same name equal, and yet their hashes differ. -/
theorem not_equal_hashes_namesakes :
    let result := checkUnit people {}
    result.diagnostics.isEmpty = true ∧ result.faults = [] ∧
    (∀ set ∈ result.table.sets, set.equality.typedEquals = .synthesized ∧ set.equality.hash = .synthesized) ∧
    peopleProgram.WellFormed .unchecked namesakes ∧ peopleProgram.HashesLawfully .unchecked namesakes ∧
    person ∈ result.table.sets ∧ person.isValueType = false ∧
    peopleProgram.IsA namesakes person (.reference 0) ∧ peopleProgram.IsA namesakes person (.reference 1) ∧
    peopleProgram.Returns person.lowerTypedEquals (some (.reference 0)) [.reference 1] namesakes (.bool true)
      namesakes ∧
    ∃ hash other, hash ≠ other ∧
      peopleProgram.Answers (.reference 0) (hashRef person.selfType) [] namesakes (.int hash) namesakes ∧
      peopleProgram.Answers (.reference 1) (hashRef person.selfType) [] namesakes (.int other) namesakes := by
  intro result
  have grown : peopleProgram.table.Grown people {} := checkUnit_grown people {}
  have personInstance : peopleProgram.IsInstance namesakes person (.reference 0) _ := ⟨rfl, rfl⟩
  have studentInstance : peopleProgram.IsInstance namesakes student (.reference 1) _ := ⟨rfl, rfl⟩
  have self := peopleProgram.table.mem_levels_self person
  have personFills := namesakes_wellFormed.fills grown personInstance self
  have studentFills := namesakes_wellFormed.fills grown studentInstance (peopleProgram.table.mem_levels_self student)
  have hEquals := Program.invoke_typedEquals grown person_mem (by decide +kernel) personInstance.found personFills
    studentInstance person_above_student (studentFills.of_under grown student_mem person_above_student)
  have hAgree : peopleProgram.agree namesakes person (namesakes[0]) (namesakes[1]) = true := by decide +kernel
  refine ⟨rfl, rfl, by decide +kernel, namesakes_wellFormed, ?_, person_mem, rfl, ⟨_, _, personInstance, self⟩,
    student_isA_person, ⟨_, hAgree ▸ hEquals⟩, ?_⟩
  · intro set _ visit _ left right _ _ hSame
    rw [of_decide_eq_true hSame]
  · refine ⟨_, _, ?_, Program.answers_hash grown personInstance self (by decide +kernel) personFills,
      Program.answers_hash grown studentInstance person_above_student (by decide +kernel) studentFills⟩
    decide +kernel

def citizens : CompilationUnit where
  records :=
    [{ name := "Person", parameters := [{ name := "Name", type := Ty.string }] },
      { name := "Citizen", base := some "Person" }]

/-- A person and a citizen of whom the one finds the other equal have one hash. -/
theorem equal_hashes_iff_citizen :
    ∃ person citizen, person ∈ (checkUnit citizens {}).table.sets ∧ citizen ∈ (checkUnit citizens {}).table.sets ∧
      citizen.recordName = "Citizen" ∧ person ∈ (checkUnit citizens {}).table.levels citizen ∧
      (∀ level ∈ (checkUnit citizens {}).table.beneath person person ++ (checkUnit citizens {}).table.beneath person citizen,
        level.state = []) ∧
      (checkUnit citizens {}).table.HashesConsistently person person citizen := by
  have personFound : (checkUnit citizens {}).table.get? "Person" = some _ := rfl
  have citizenFound : (checkUnit citizens {}).table.get? "Citizen" = some _ := rfl
  have personMem := (RecordTable.mem_of_get? personFound).1
  have citizenMem := (RecordTable.mem_of_get? citizenFound).1
  have under := (checkUnit_grown citizens {}).mem_levels_of_baseOf? citizenMem rfl
  refine ⟨_, _, personMem, citizenMem, rfl, under, ?_, ?_⟩
  · decide +kernel
  · refine (equal_hashes_iff citizens {} _ _ _ personMem citizenMem (RecordTable.mem_levels_self _ _) under ?_ ?_).mpr ?_
    · decide +kernel
    · decide +kernel
    · decide +kernel

end RecordSynthesis
