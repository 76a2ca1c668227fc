import RecordSynthesis.Proofs.CodeReading

/-!
# Code is known by its text

The first characters of a line tell what kind of statement it is, the reader of expressions what it is made of, and the
indentation of the following lines where a nested block ends. So two bodies or two expressions have the same text exactly
when they have the same skeleton.
-/

namespace RecordSynthesis.Code

set_option autoImplicit false

inductive LineKind
  | store
  | storeOut
  | callBase
  | when
  | exit
  | exitWith
  | userBody

def StmtSkeleton.kind : StmtSkeleton → LineKind
  | .store _ _ _ => .store
  | .storeOut _ _ => .storeOut
  | .callBaseConstructor _ _ => .callBase
  | .when _ _ => .when
  | .exit none => .exit
  | .exit (some _) => .exitWith
  | .userBody _ => .userBody

def lineKind : List Char → LineKind
  | 'o' :: 'u' :: 't' :: ' ' :: _ => .storeOut
  | 'c' :: 'a' :: 'l' :: 'l' :: ' ' :: _ => .callBase
  | 'i' :: 'f' :: ' ' :: _ => .when
  | 'r' :: 'e' :: 't' :: 'u' :: 'r' :: 'n' :: ' ' :: _ => .exitWith
  | ['r', 'e', 't', 'u', 'r', 'n'] => .exit
  | 'r' :: 'e' :: 't' :: 'u' :: 'r' :: 'n' :: '\n' :: _ => .exit
  | '<' :: 'u' :: 's' :: 'e' :: 'r' :: ' ' :: 'b' :: 'o' :: 'd' :: 'y' :: ' ' :: '#' :: _ => .userBody
  | _ => .store

/-- No expression begins like a statement of another kind. -/
theorem lineKind_eq_store {text : List Char} (h : (⟨.operand, [], text⟩ : Reader).step ≠ none) :
    lineKind text = .store := by
  rw [lineKind.eq_def]
  split
  case h_8 => rfl
  all_goals exact absurd rfl h

/-- This text does not belong to a block of that depth: nothing follows, or a line that is indented less. -/
def Outside (depth : Nat) (text : List Char) : Prop :=
  text = [] ∨ ∃ outer c more, outer < depth ∧ c ≠ ' ' ∧ text = '\n' :: (margin outer ++ c :: more)

theorem Outside.deeper {depth other : Nat} {text : List Char} (h : Outside depth text) (hDepth : depth ≤ other) :
    Outside other text := by
  rcases h with rfl | ⟨outer, c, more, hOuter, hChar, rfl⟩
  · exact .inl rfl
  · exact .inr ⟨outer, c, more, Nat.lt_of_lt_of_le hOuter hDepth, hChar, rfl⟩

theorem follows_nil : Reader.Follows 0 [] :=
  ⟨Nat.le_refl 0, by simp, by simp [segment]⟩

theorem follows_line (text : List Char) : Reader.Follows 0 ('\n' :: text) :=
  Reader.follows_end (by decide) (Nat.le_of_eq (Reader.pull_of_ne_blank (by decide) (by decide) text))

theorem follows_assignment (text : List Char) : Reader.Follows 0 (" = ".toList ++ text) :=
  Reader.follows_end (by decide) (Nat.le_refl 0)

theorem Outside.follows {depth : Nat} {text : List Char} (h : Outside depth text) : Reader.Follows 0 text := by
  rcases h with rfl | ⟨outer, c, more, -, -, rfl⟩
  · exact follows_nil
  · exact follows_line _

theorem follows_colon {text : List Char} (h : text.head? ≠ some ':') : Reader.Follows 0 (':' :: text) := by
  refine ⟨Nat.le_of_eq (Reader.pull_of_ne_blank (by decide) (by decide) text), by rintro c ⟨⟩; decide, ?_⟩
  rw [Reader.segment_end (by decide), List.cons_prefix_cons]
  rintro ⟨-, more, rfl⟩
  exact h rfl

theorem blanks_injective {m n : Nat} {c d : Char} {text other : List Char} (hChar : c ≠ ' ') (hOther : d ≠ ' ')
    (h : List.replicate m ' ' ++ c :: text = List.replicate n ' ' ++ d :: other) :
    m = n ∧ c :: text = d :: other := by
  induction m generalizing n with
  | zero =>
    cases n with
    | zero => exact ⟨rfl, h⟩
    | succ n => exact absurd (List.cons.inj h).1 hChar
  | succ m ih =>
    cases n with
    | zero => exact absurd (List.cons.inj h).1.symm hOther
    | succ n =>
      obtain ⟨hCount, hText⟩ := ih (List.cons.inj h).2
      exact ⟨congrArg (· + 1) hCount, hText⟩

theorem margin_injective {depth deep : Nat} {c d : Char} {text other : List Char} (hChar : c ≠ ' ') (hOther : d ≠ ' ')
    (h : margin depth ++ c :: text = margin deep ++ d :: other) : depth = deep ∧ c :: text = d :: other := by
  obtain ⟨hCount, hText⟩ := blanks_injective hChar hOther h
  exact ⟨by omega, hText⟩

theorem write_store (target : ExprSkeleton) (field : String) (value : ExprSkeleton) (depth : Nat) (rest : List Char) :
    (StmtSkeleton.store target field value).write depth ++ rest =
      (ExprSkeleton.load target field).write 0 ++ (" = ".toList ++ (value.write 0 ++ rest)) := by
  rw [StmtSkeleton.write.eq_def, List.append_assoc, List.append_assoc]

theorem step_store_ne_none {target value : ExprSkeleton} {field : String}
    (h : (StmtSkeleton.store target field value).IsPlain) (depth : Nat) (rest : List Char) :
    (⟨.operand, [], (StmtSkeleton.store target field value).write depth ++ rest⟩ : Reader).step ≠ none := by
  have hLoad : (ExprSkeleton.load target field).IsPlain := ⟨h.1, h.2.1⟩
  rw [write_store]
  exact Reader.step_write_ne_none hLoad (follows_assignment _)

theorem lineKind_write {stmt : StmtSkeleton} {depth : Nat} {rest : List Char} (h : stmt.IsPlain)
    (hRest : Outside (depth + 1) rest) : lineKind (stmt.write depth ++ rest) = stmt.kind := by
  cases stmt with
  | store => exact lineKind_eq_store (step_store_ne_none h depth rest)
  | storeOut | callBaseConstructor | when | userBody => rfl
  | exit value =>
    cases value with
    | some => rfl
    | none =>
      rcases hRest with rfl | ⟨outer, c, more, -, -, rfl⟩
      · rfl
      · rfl

theorem exists_first {stmt : StmtSkeleton} (h : stmt.IsPlain) (depth : Nat) (rest : List Char) :
    ∃ c text, stmt.write depth ++ rest = c :: text ∧ c ≠ ' ' := by
  cases stmt with
  | store =>
    have hStep := step_store_ne_none h depth rest
    revert hStep
    cases StmtSkeleton.write depth _ ++ rest with
    | nil => exact fun hStep => absurd rfl hStep
    | cons c text =>
      refine fun hStep => ⟨c, text, rfl, ?_⟩
      rintro rfl
      exact hStep rfl
  | storeOut | callBaseConstructor | when | userBody => exact ⟨_, _, rfl, by decide⟩
  | exit value => cases value <;> exact ⟨_, _, rfl, by decide⟩

theorem name_append_injective {name name' rest other : List Char} (hName : ∀ c ∈ name, isNameChar c = true)
    (hName' : ∀ c ∈ name', isNameChar c = true) (hRest : ∀ c ∈ rest.head?, isNameChar c = false)
    (hOther : ∀ c ∈ other.head?, isNameChar c = false) (h : name ++ rest = name' ++ other) :
    name = name' ∧ rest = other := by
  have hSplit := congrArg Reader.splitName h
  rwa [Reader.splitName_append hName hRest, Reader.splitName_append hName' hOther, Prod.mk.injEq] at hSplit

section

variable {depth : Nat} {rest other : List Char}

theorem eq_of_write_store {target value target' value' : ExprSkeleton} {field field' : String}
    (hFirst : (StmtSkeleton.store target field value).IsPlain)
    (hSecond : (StmtSkeleton.store target' field' value').IsPlain) (hRest : Outside (depth + 1) rest)
    (hOther : Outside (depth + 1) other)
    (h : (StmtSkeleton.store target field value).write depth ++ rest =
      (StmtSkeleton.store target' field' value').write depth ++ other) :
    StmtSkeleton.store target field value = .store target' field' value' ∧ rest = other := by
  have hLoad : (ExprSkeleton.load target field).IsPlain := ⟨hFirst.1, hFirst.2.1⟩
  have hLoad' : (ExprSkeleton.load target' field').IsPlain := ⟨hSecond.1, hSecond.2.1⟩
  rw [write_store, write_store] at h
  obtain ⟨hTarget, hValues⟩ :=
    Reader.write_injective hLoad hLoad' (follows_assignment _) (follows_assignment _) h
  obtain ⟨rfl, hEnd⟩ := Reader.write_injective hFirst.2.2 hSecond.2.2 hRest.follows hOther.follows
    (List.append_cancel_left hValues)
  cases hTarget
  exact ⟨rfl, hEnd⟩

theorem eq_of_write_storeOut {name name' : String} {value value' : ExprSkeleton}
    (hFirst : (StmtSkeleton.storeOut name value).IsPlain) (hSecond : (StmtSkeleton.storeOut name' value').IsPlain)
    (hRest : Outside (depth + 1) rest) (hOther : Outside (depth + 1) other)
    (h : (StmtSkeleton.storeOut name value).write depth ++ rest =
      (StmtSkeleton.storeOut name' value').write depth ++ other) :
    StmtSkeleton.storeOut name value = .storeOut name' value' ∧ rest = other := by
  have hText (name : String) (value : ExprSkeleton) (rest : List Char) :
      (StmtSkeleton.storeOut name value).write depth ++ rest =
        "out ".toList ++ (name.toList ++ (" = ".toList ++ (value.write 0 ++ rest))) := by
    rw [StmtSkeleton.write.eq_def, List.append_assoc, List.append_assoc, List.append_assoc]
  have hBlank (text : List Char) : ∀ c ∈ (" = ".toList ++ text).head?, isNameChar c = false := by
    rintro c ⟨⟩
    decide
  rw [hText, hText] at h
  obtain ⟨hName, hValues⟩ := name_append_injective hFirst.1.chars hSecond.1.chars (hBlank _) (hBlank _)
    (List.append_cancel_left h)
  obtain ⟨rfl, hEnd⟩ := Reader.write_injective hFirst.2 hSecond.2 hRest.follows hOther.follows
    (List.append_cancel_left hValues)
  rw [String.toList_inj.mp hName]
  exact ⟨rfl, hEnd⟩

theorem eq_of_write_callBaseConstructor {type type' : String} {arguments arguments' : List ExprSkeleton}
    (hFirst : (StmtSkeleton.callBaseConstructor type arguments).IsPlain)
    (hSecond : (StmtSkeleton.callBaseConstructor type' arguments').IsPlain) (hRest : Outside (depth + 1) rest)
    (hOther : Outside (depth + 1) other)
    (h : (StmtSkeleton.callBaseConstructor type arguments).write depth ++ rest =
      (StmtSkeleton.callBaseConstructor type' arguments').write depth ++ other) :
    StmtSkeleton.callBaseConstructor type arguments = .callBaseConstructor type' arguments' ∧ rest = other := by
  have hText (type : String) (arguments : List ExprSkeleton) (rest : List Char) :
      (StmtSkeleton.callBaseConstructor type arguments).write depth ++ rest =
        "call base ".toList ++
          (type.toList ++ ("::.ctor(".toList ++ (writeArguments arguments ++ ')' :: rest))) := by
    rw [StmtSkeleton.write.eq_def, List.append_assoc, List.append_assoc, List.append_assoc, List.append_assoc,
      List.singleton_append]
  have hType {type : String} (hPlain : IsTypeText type) (text : List Char) :
      segment 0 (type.toList ++ ("::.ctor(".toList ++ text)) = (type.toList, "::.ctor(".toList ++ text) :=
    Reader.segment_append_end hPlain.absorbed (by decide) _
  rw [hText, hText] at h
  have hTypes := congrArg (segment 0) (List.append_cancel_left h)
  rw [hType hFirst.1, hType hSecond.1] at hTypes
  obtain ⟨hSame, hArguments⟩ := Prod.mk.inj hTypes
  obtain ⟨rfl, hEnd⟩ := Reader.writeArguments_injective hFirst.2 hSecond.2 hRest.follows hOther.follows
    (List.append_cancel_left hArguments)
  rw [String.toList_inj.mp hSame]
  exact ⟨rfl, hEnd⟩

theorem eq_of_write_exit {value value' : Option ExprSkeleton} (hFirst : (StmtSkeleton.exit value).IsPlain)
    (hSecond : (StmtSkeleton.exit value').IsPlain) (hRest : Outside (depth + 1) rest)
    (hOther : Outside (depth + 1) other) (hKind : (StmtSkeleton.exit value).kind = (StmtSkeleton.exit value').kind)
    (h : (StmtSkeleton.exit value).write depth ++ rest = (StmtSkeleton.exit value').write depth ++ other) :
    StmtSkeleton.exit value = .exit value' ∧ rest = other := by
  cases value with
  | none =>
    cases value' with
    | none => exact ⟨rfl, List.append_cancel_left h⟩
    | some => cases hKind
  | some value =>
    cases value' with
    | none => cases hKind
    | some value' =>
      have hText (value : ExprSkeleton) (rest : List Char) : (StmtSkeleton.exit (some value)).write depth ++ rest =
          "return ".toList ++ (value.write 0 ++ rest) := by
        rw [StmtSkeleton.write.eq_def, List.append_assoc]
      rw [hText, hText] at h
      obtain ⟨rfl, hEnd⟩ := Reader.write_injective hFirst hSecond hRest.follows hOther.follows
        (List.append_cancel_left h)
      exact ⟨rfl, hEnd⟩

theorem isNameChar_of_mem_digits {n : Nat} : ∀ c ∈ (toString n).toList, isNameChar c = true := by
  intro c hc
  rw [Nat.toString_eq_repr, Nat.toList_repr] at hc
  have hDigit := Nat.isDigit_of_mem_toDigits (by decide) (by decide) hc
  have hSmall : c.toNat < 128 := by
    rw [Char.isDigit, Bool.and_eq_true, decide_eq_true_eq, decide_eq_true_eq, UInt32.le_iff_toNat_le] at hDigit
    have : c.toNat ≤ 57 := hDigit.2
    omega
  rw [isNameChar, Text.isAlphanumeric, if_pos hSmall, Char.isAlphanum, hDigit, Bool.or_true, Bool.true_or]

theorem toList_toString_inj {m n : Nat} : (toString m).toList = (toString n).toList ↔ m = n := by
  rw [Nat.toString_eq_repr, Nat.toString_eq_repr, Nat.toList_repr, Nat.toList_repr]
  refine ⟨fun h => ?_, fun h => by rw [h]⟩
  have hValue := congrArg (Nat.ofDigitChars 10 · 0) h
  rwa [Nat.ofDigitChars_toDigits (by decide) (by decide), Nat.ofDigitChars_toDigits (by decide) (by decide)] at hValue

theorem eq_of_write_userBody {body body' : UInt32}
    (h : (StmtSkeleton.userBody body).write depth ++ rest = (StmtSkeleton.userBody body').write depth ++ other) :
    StmtSkeleton.userBody body = .userBody body' ∧ rest = other := by
  have hText (body : UInt32) (rest : List Char) : (StmtSkeleton.userBody body).write depth ++ rest =
      "<user body #".toList ++ ((toString body.toNat).toList ++ '>' :: rest) := by
    rw [StmtSkeleton.write.eq_def, List.append_assoc, List.append_assoc, List.singleton_append]
  have hClose (rest : List Char) : ∀ c ∈ ('>' :: rest).head?, isNameChar c = false := by
    rintro c ⟨⟩
    decide
  rw [hText, hText] at h
  obtain ⟨hNumber, hEnd⟩ := name_append_injective isNameChar_of_mem_digits isNameChar_of_mem_digits (hClose _)
    (hClose _) (List.append_cancel_left h)
  rw [toList_toString_inj, UInt32.toNat_inj] at hNumber
  exact ⟨by rw [hNumber], (List.cons.inj hEnd).2⟩

end

theorem writeBlock_cons (depth : Nat) (stmt : StmtSkeleton) (others : List StmtSkeleton) (rest : List Char) :
    writeBlock depth (stmt :: others) ++ rest =
      '\n' :: (margin depth ++ (stmt.write depth ++ (writeBlock depth others ++ rest))) := by
  rw [writeBlock, List.cons_append, List.append_assoc, List.append_assoc]

theorem outside_block {depth : Nat} {stmts : List StmtSkeleton} {rest : List Char} (h : BlockIsPlain stmts)
    (hRest : Outside depth rest) : Outside (depth + 1) (writeBlock depth stmts ++ rest) := by
  cases stmts with
  | nil => exact hRest.deeper (Nat.le_succ depth)
  | cons stmt others =>
    obtain ⟨c, text, hFirst, hChar⟩ := exists_first h.1 depth (writeBlock depth others ++ rest)
    rw [writeBlock_cons, hFirst]
    exact .inr ⟨depth, c, text, Nat.lt_succ_self depth, hChar, rfl⟩

theorem writeBlock_ne_outside {depth : Nat} {stmt : StmtSkeleton} {others : List StmtSkeleton} {rest text : List Char}
    (h : stmt.IsPlain) (hText : Outside depth text) : text ≠ writeBlock depth (stmt :: others) ++ rest := by
  obtain ⟨d, more, hFirst, hOther⟩ := exists_first h depth (writeBlock depth others ++ rest)
  rw [writeBlock_cons, hFirst]
  rcases hText with rfl | ⟨outer, c, text, hOuter, hChar, rfl⟩
  · exact List.cons_ne_nil _ _ ∘ Eq.symm
  · intro hSame
    obtain ⟨rfl, -⟩ := margin_injective hChar hOther (List.cons.inj hSame).2
    exact Nat.lt_irrefl _ hOuter

theorem head?_block_ne_colon (depth : Nat) (stmts : List StmtSkeleton) {rest : List Char}
    (hRest : Outside (depth + 1) rest) : (writeBlock (depth + 1) stmts ++ rest).head? ≠ some ':' := by
  cases stmts with
  | nil => rcases hRest with rfl | ⟨outer, c, more, -, -, rfl⟩ <;> exact fun h => by cases h
  | cons => exact fun h => by cases h

theorem kind_eq_of_write {first second : StmtSkeleton} {depth : Nat} {rest other : List Char} (hFirst : first.IsPlain)
    (hSecond : second.IsPlain) (hRest : Outside (depth + 1) rest) (hOther : Outside (depth + 1) other)
    (h : first.write depth ++ rest = second.write depth ++ other) : first.kind = second.kind := by
  rw [← lineKind_write hFirst hRest, ← lineKind_write hSecond hOther, h]

theorem write_when (condition : ExprSkeleton) (body : List StmtSkeleton) (depth : Nat) (rest : List Char) :
    (StmtSkeleton.when condition body).write depth ++ rest =
      "if ".toList ++ (condition.write 0 ++ ':' :: (writeBlock (depth + 1) body ++ rest)) := by
  rw [StmtSkeleton.write.eq_def, List.append_assoc, List.append_assoc, List.cons_append]

mutual

/-- A statement, and where it ends, are decided by its text: what follows stands no further to the right. -/
theorem eq_of_write : ∀ (first second : StmtSkeleton) (depth : Nat) (rest other : List Char), first.IsPlain →
    second.IsPlain → Outside (depth + 1) rest → Outside (depth + 1) other →
    first.write depth ++ rest = second.write depth ++ other → first = second ∧ rest = other
  | .store _ _ _, second, _, _, _, hFirst, hSecond, hRest, hOther, h => by
    have hKind := kind_eq_of_write hFirst hSecond hRest hOther h
    cases second with
    | store => exact eq_of_write_store hFirst hSecond hRest hOther h
    | exit value => cases value <;> cases hKind
    | storeOut | callBaseConstructor | when | userBody => cases hKind
  | .storeOut _ _, second, _, _, _, hFirst, hSecond, hRest, hOther, h => by
    have hKind := kind_eq_of_write hFirst hSecond hRest hOther h
    cases second with
    | storeOut => exact eq_of_write_storeOut hFirst hSecond hRest hOther h
    | exit value => cases value <;> cases hKind
    | store | callBaseConstructor | when | userBody => cases hKind
  | .callBaseConstructor _ _, second, _, _, _, hFirst, hSecond, hRest, hOther, h => by
    have hKind := kind_eq_of_write hFirst hSecond hRest hOther h
    cases second with
    | callBaseConstructor => exact eq_of_write_callBaseConstructor hFirst hSecond hRest hOther h
    | exit value => cases value <;> cases hKind
    | store | storeOut | when | userBody => cases hKind
  | .userBody _, second, _, _, _, hFirst, hSecond, hRest, hOther, h => by
    have hKind := kind_eq_of_write hFirst hSecond hRest hOther h
    cases second with
    | userBody => exact eq_of_write_userBody h
    | exit value => cases value <;> cases hKind
    | store | storeOut | callBaseConstructor | when => cases hKind
  | .exit value, second, _, _, _, hFirst, hSecond, hRest, hOther, h => by
    have hKind := kind_eq_of_write hFirst hSecond hRest hOther h
    cases second with
    | exit => exact eq_of_write_exit hFirst hSecond hRest hOther hKind h
    | store | storeOut | callBaseConstructor | when | userBody => cases value <;> cases hKind
  | .when condition body, second, depth, rest, other, hFirst, hSecond, hRest, hOther, h => by
    have hKind := kind_eq_of_write hFirst hSecond hRest hOther h
    cases second with
    | when condition' body' =>
      have hBlock := follows_colon (head?_block_ne_colon depth body hRest)
      have hBlock' := follows_colon (head?_block_ne_colon depth body' hOther)
      rw [write_when, write_when] at h
      obtain ⟨rfl, hBodies⟩ := Reader.write_injective hFirst.1 hSecond.1 hBlock hBlock' (List.append_cancel_left h)
      obtain ⟨rfl, hEnd⟩ := eq_of_writeBlock body body' (depth + 1) rest other hFirst.2 hSecond.2 hRest hOther
        (List.cons.inj hBodies).2
      exact ⟨rfl, hEnd⟩
    | exit value => cases value <;> cases hKind
    | store | storeOut | callBaseConstructor | userBody => cases hKind

theorem eq_of_writeBlock : ∀ (first second : List StmtSkeleton) (depth : Nat) (rest other : List Char),
    BlockIsPlain first → BlockIsPlain second → Outside depth rest → Outside depth other →
    writeBlock depth first ++ rest = writeBlock depth second ++ other → first = second ∧ rest = other
  | [], [], _, _, _, _, _, _, _, h => ⟨rfl, h⟩
  | [], _ :: _, _, _, _, _, hSecond, hRest, _, h => absurd h (writeBlock_ne_outside hSecond.1 hRest)
  | _ :: _, [], _, _, _, hFirst, _, _, hOther, h => absurd h.symm (writeBlock_ne_outside hFirst.1 hOther)
  | stmt :: others, stmt' :: others', depth, rest, other, ⟨hStmt, hOthers⟩, ⟨hStmt', hOthers'⟩, hRest, hOther, h => by
    rw [writeBlock_cons, writeBlock_cons] at h
    obtain ⟨rfl, hLater⟩ := eq_of_write stmt stmt' depth _ _ hStmt hStmt' (outside_block hOthers hRest)
      (outside_block hOthers' hOther) (List.append_cancel_left (List.cons.inj h).2)
    obtain ⟨rfl, hEnd⟩ := eq_of_writeBlock others others' depth rest other hOthers hOthers' hRest hOther hLater
    exact ⟨rfl, hEnd⟩

end

/-- Two expressions have the same text exactly when they have the same skeleton, and so have two bodies. -/
theorem texts_eq_iff_skeletons_eq :
    (∀ first second : Expr, first.skeleton.IsPlain → second.skeleton.IsPlain →
      (first.render 0 = second.render 0 ↔ first.skeleton = second.skeleton)) ∧
    ∀ (depth : Nat) (first second : List Stmt), BlockIsPlain (blockSkeleton first) →
      BlockIsPlain (blockSkeleton second) →
      (renderBlock depth first = renderBlock depth second ↔ blockSkeleton first = blockSkeleton second) := by
  constructor
  · intro first second hFirst hSecond
    rw [← String.toList_inj, toList_render, toList_render]
    refine ⟨fun h => ?_, fun h => by rw [h]⟩
    exact (Reader.write_injective hFirst hSecond follows_nil follows_nil (by rw [h])).1
  · intro depth first second hFirst hSecond
    rw [← String.toList_inj, toList_renderBlock, toList_renderBlock]
    refine ⟨fun h => ?_, fun h => by rw [h]⟩
    exact (eq_of_writeBlock _ _ depth [] [] hFirst hSecond (.inl rfl) (.inl rfl) (by rw [h])).1

def Expr.staticTypes? : Expr → Option (List Ty × Option Ty)
  | .callStatic method _ => some (method.types, method.returnType)
  | _ => none

def Stmt.baseConstructor? : Stmt → Option ConstructorRef
  | .callBaseConstructor constructor _ => some constructor
  | _ => none

def staticCall (types : List Ty) (returnType : Option Ty) : Expr :=
  .callStatic ⟨.named "A" [] .reference, "f", types, returnType⟩ []

/-- Static calls of two overloads have one text, and so have the base constructor of all types and that of a record which
is called `object`. -/
theorem not_texts_tell_references :
    (staticCall [Ty.int] none).skeleton.IsPlain ∧ (staticCall [Ty.string] (some Ty.bool)).skeleton.IsPlain ∧
    (staticCall [Ty.int] none).render 0 = (staticCall [Ty.string] (some Ty.bool)).render 0 ∧
    (staticCall [Ty.int] none).staticTypes? ≠ (staticCall [Ty.string] (some Ty.bool)).staticTypes? ∧
    (Stmt.callBaseConstructor .object []).skeleton.IsPlain ∧
    (Stmt.callBaseConstructor .object []).render 1 = (Stmt.callBaseConstructor (.record Ty.object []) []).render 1 ∧
    (Stmt.callBaseConstructor .object []).baseConstructor? ≠
      (Stmt.callBaseConstructor (.record Ty.object []) []).baseConstructor? := by
  have hOwner : IsTypeText "A" := ⟨.named "A" [] .reference, ⟨⟨by decide, List.all_eq_true.mp rfl⟩, trivial⟩, rfl⟩
  have hMethod : IsFreeName "f" := by decide
  have hObject : IsTypeText "object" := ⟨Ty.object, trivial, rfl⟩
  refine ⟨⟨⟨hOwner, hMethod⟩, trivial⟩, ⟨⟨hOwner, hMethod⟩, trivial⟩, rfl, fun h => ?_, ⟨hObject, trivial⟩, rfl, fun h => ?_⟩
  · cases h
  · cases h

def castOfBoth : Expr :=
  .cast (.andAlso (.parameter "a") (.parameter "b")) (.named "Flag" [] .reference)

def bothOfCast : Expr :=
  .andAlso (.cast (.parameter "a") (.named "Flag" [] .reference)) (.parameter "b")

def exitInside : List Stmt := [.when (.parameter "a") [.userBody 1, .exit none]]
def exitBehind : List Stmt := [.when (.parameter "a") [.userBody 1], .exit none]

theorem texts_eq_iff_skeletons_eq_flags :
    castOfBoth.skeleton.IsPlain ∧ bothOfCast.skeleton.IsPlain ∧ castOfBoth.render 0 = "(Flag)(a && b)" ∧
      castOfBoth.render 0 ≠ bothOfCast.render 0 ∧ BlockIsPlain (blockSkeleton exitInside) ∧
      BlockIsPlain (blockSkeleton exitBehind) ∧ renderBlock 1 exitInside ≠ renderBlock 1 exitBehind := by
  have hA : IsFreeName "a" := by decide
  have hB : IsFreeName "b" := by decide
  have hFlag : IsTypeText "Flag" := ⟨.named "Flag" [] .reference, ⟨⟨by decide, List.all_eq_true.mp rfl⟩, trivial⟩, rfl⟩
  have hCast : castOfBoth.skeleton.IsPlain := ⟨⟨hA, hB⟩, hFlag⟩
  have hBoth : bothOfCast.skeleton.IsPlain := ⟨⟨hA, hFlag⟩, hB⟩
  have hInside : BlockIsPlain (blockSkeleton exitInside) := ⟨⟨hA, trivial, trivial, trivial⟩, trivial⟩
  have hBehind : BlockIsPlain (blockSkeleton exitBehind) := ⟨⟨hA, trivial, trivial⟩, trivial, trivial⟩
  obtain ⟨hExprs, hBodies⟩ := texts_eq_iff_skeletons_eq
  refine ⟨hCast, hBoth, rfl, fun h => ?_, hInside, hBehind, fun h => ?_⟩
  · cases (hExprs _ _ hCast hBoth).mp h
  · cases (hBodies 1 _ _ hInside hBehind).mp h

end RecordSynthesis.Code
