import RecordSynthesis.Proofs.ViewAgreement

/-!
# The order of the member view

The view goes through the kinds of members, and within a kind through what is synthesized before what is declared. Every
declared member has one place in it, behind those of its kind that the record declares before.
-/

namespace RecordSynthesis

set_option autoImplicit false

open Decl (Record Member)

def MemberKind.rank : MemberKind → Nat
  | .constructor => 0
  | .property => 1
  | .field => 2
  | .event => 3
  | .indexer => 4
  | .method => 5
  | .operator => 6

/-- An entry has its place before another one: its kind comes first, or they are of one kind and it is synthesized or
declared earlier. -/
inductive MemberSymbol.Precedes (before after : MemberSymbol) : Prop
  | grouped (earlier : before.kind.rank < after.kind.rank)
  | synthesized (alike : before.kind = after.kind) (made : before.origin = .synthesized)
  | declared {i j : Nat} (alike : before.kind = after.kind) (first : before.origin = .user i)
      (second : after.origin = .user j) (earlier : i < j)

theorem MemberSymbol.Precedes.ne_of_declared {before after : MemberSymbol} (h : before.Precedes after) {position : Nat}
    (declared : before.origin = .user position) : before ≠ after := by
  rintro rfl
  cases h with
  | grouped earlier => exact Nat.lt_irrefl _ earlier
  | synthesized _ made =>
    rw [declared] at made
    cases made
  | declared _ first second earlier =>
    rw [first] at second
    cases second
    exact Nat.lt_irrefl _ earlier

namespace Decl.Member

def kind : Member → MemberKind
  | .field _ => .field
  | .property _ => .property
  | .event _ => .event
  | .indexer _ => .indexer
  | .method _ => .method
  | .constructor _ => .constructor

def parameters : Member → List Parameter
  | .field _ | .property _ | .event _ => []
  | .indexer i => i.parameters
  | .method m => m.parameters
  | .constructor c => c.parameters

def resultType : Member → Option Ty
  | .field f => some f.type
  | .property q => some q.type
  | .event e => some e.type
  | .indexer i => some i.type
  | .method m => m.returnType
  | .constructor _ => none

def visibility : Member → Visibility
  | .field f => f.visibility
  | .property q => q.visibility
  | .event e => e.visibility
  | .indexer _ => .isPublic
  | .method m => m.visibility
  | .constructor c => c.visibility

def isStatic : Member → Bool
  | .field f => f.isStatic
  | .property q => q.isStatic
  | .event e => e.isStatic
  | .method m => m.isStatic
  | .indexer _ | .constructor _ => false

end Decl.Member

/-- An entry shows a member of a record as it is declared, a constructor under the name of the record. -/
structure MemberSymbol.Shows (symbol : MemberSymbol) (record : String) (member : Member) : Prop where
  kind : symbol.kind = member.kind
  name : symbol.name = if member.kind = .constructor then record else member.name
  types : symbol.types = member.parameters.map (·.type)
  returnType : symbol.returnType = member.resultType
  visibility : symbol.visibility = member.visibility
  isStatic : symbol.isStatic = member.isStatic

namespace MemberSymbol

theorem origin_ofMember (record : String) (position : Nat) (member : Member) :
    (ofMember record position member).origin = .user position := by
  cases member <;> rfl

theorem shows_ofMember (record : String) (position : Nat) (member : Member) :
    (ofMember record position member).Shows record member := by
  cases member <;> exact ⟨rfl, rfl, rfl, rfl, rfl, rfl⟩

end MemberSymbol

namespace MemberSet

theorem pairwise_userSymbols (set : MemberSet) :
    set.userSymbols.Pairwise fun before after =>
      ∃ i j, before.origin = .user i ∧ after.origin = .user j ∧ i < j := by
  rw [List.pairwise_iff_getElem]
  intro i j hi hj earlier
  refine ⟨i, j, ?_, ?_, earlier⟩
  · simp only [userSymbols, List.getElem_mapIdx, MemberSymbol.origin_ofMember]
  · simp only [userSymbols, List.getElem_mapIdx, MemberSymbol.origin_ofMember]

theorem precedes_group (set : MemberSet) (kind : MemberKind) : (set.group kind).Pairwise MemberSymbol.Precedes := by
  have alike : ∀ before ∈ set.group kind, ∀ after ∈ set.group kind, before.kind = after.kind := by
    intro before hBefore after hAfter
    rw [kind_of_mem_group hBefore, kind_of_mem_group hAfter]
  have hDeclared : (set.userSymbols.filter fun symbol => symbol.kind = kind).Pairwise MemberSymbol.Precedes := by
    refine (set.pairwise_userSymbols.filter _).imp_of_mem ?_
    rintro before after hBefore hAfter ⟨i, j, first, second, earlier⟩
    exact .declared (alike _ (List.mem_append_right _ hBefore) _ (List.mem_append_right _ hAfter)) first second earlier
  have hSynthesized : ∀ before ∈ set.synthesizedOf kind, ∀ after ∈ set.group kind, before.Precedes after := by
    intro before hBefore after hAfter
    exact .synthesized (alike _ (List.mem_append_left _ hBefore) _ hAfter) (of_mem_synthesizedOf hBefore).2
  refine List.pairwise_append.mpr ⟨List.pairwise_of_forall_mem_list ?_, hDeclared, ?_⟩
  · exact fun before hBefore after hAfter => hSynthesized before hBefore after (List.mem_append_left _ hAfter)
  · exact fun before hBefore after hAfter => hSynthesized before hBefore after (List.mem_append_right _ hAfter)

theorem precedes_members (set : MemberSet) : set.members.Pairwise MemberSymbol.Precedes := by
  have hRanks : MemberKind.all.Pairwise fun kind other => kind.rank < other.rank := by decide
  refine List.pairwise_flatMap.mpr ⟨fun kind _ => set.precedes_group kind, hRanks.imp ?_⟩
  intro kind other earlier before hBefore after hAfter
  refine .grouped ?_
  rwa [kind_of_mem_group hBefore, kind_of_mem_group hAfter]

theorem filter_members_declared {set : MemberSet} {position : Nat} {member : Member}
    (declared : set.userMembers[position]? = some member) :
    (set.members.filter fun symbol => symbol.origin = .user position) = [.ofMember set.recordName position member] := by
  have hMem : ∀ symbol, symbol ∈ (set.members.filter fun symbol => symbol.origin = .user position) ↔
      symbol = .ofMember set.recordName position member := by
    intro symbol
    rw [List.mem_filter, decide_eq_true_eq, mem_members_user_iff declared]
  have hOrder := set.precedes_members.filter fun symbol => symbol.origin = .user position
  generalize (set.members.filter fun symbol => symbol.origin = .user position) = entries at hMem hOrder
  match entries with
  | [] => cases (hMem _).mpr rfl
  | [only] => rw [(hMem only).mp List.mem_cons_self]
  | first :: second :: others =>
    have hFirst := (hMem first).mp List.mem_cons_self
    have hSecond := (hMem second).mp (List.mem_cons_of_mem _ List.mem_cons_self)
    have hBefore := List.rel_of_pairwise_cons hOrder List.mem_cons_self
    rw [hFirst, hSecond] at hBefore
    exact absurd rfl (hBefore.ne_of_declared (MemberSymbol.origin_ofMember ..))

theorem declared_of_mem_members {set : MemberSet} {symbol : MemberSymbol} (mem : symbol ∈ set.members) {position : Nat}
    (declared : symbol.origin = .user position) : position < set.userMembers.length := by
  obtain ⟨kind, -, hGroup⟩ := List.mem_flatMap.mp mem
  rcases List.mem_append.mp hGroup with hMade | hUser
  · rw [(of_mem_synthesizedOf hMade).2] at declared
    cases declared
  · obtain ⟨found, member, hMember, rfl⟩ := mem_userSymbols (List.mem_of_mem_filter hUser)
    rw [MemberSymbol.origin_ofMember] at declared
    cases declared
    exact (List.getElem?_eq_some_iff.mp hMember).1

/-- The constructors stand in front of the view, and there are none behind. -/
theorem members_eq_constructors_append (set : MemberSet) :
    ∃ others, set.members = set.constructors ++ others ∧ ∀ symbol ∈ others, symbol.kind ≠ .constructor := by
  refine ⟨[MemberKind.property, .field, .event, .indexer, .method, .operator].flatMap set.group, ?_, ?_⟩
  · rw [constructors_eq_group]
    rfl
  · intro symbol hSymbol
    obtain ⟨kind, hKind, hGroup⟩ := List.mem_flatMap.mp hSymbol
    rw [kind_of_mem_group hGroup]
    rintro rfl
    simp at hKind

end MemberSet

/-- The view of a synthesized set lists every declared member once, as it is declared, and no other as a declared one.
Its entries stand in the order of their kinds, in each kind the synthesized ones first and then the declared ones as the
record has them; the constructors are what stands in front. -/
theorem view_keeps_declared_members (record : Record) (effective : List EffectiveMember) (given : Option MemberSet)
    (options : SynthesisOptions) (set : MemberSet)
    (synthesized : (record.synthesize effective given options).outcome = .ok set) :
    (∀ position member, record.members[position]? = some member →
      ∃ symbol, (set.members.filter fun entry => entry.origin = .user position) = [symbol] ∧
        symbol.Shows record.name member) ∧
    (∀ symbol ∈ set.members, ∀ position, symbol.origin = .user position → position < record.members.length) ∧
    set.members.Pairwise MemberSymbol.Precedes ∧
    (∀ symbol ∈ set.constructors, symbol.kind = .constructor) ∧
    ∃ others, set.members = set.constructors ++ others ∧ ∀ symbol ∈ others, symbol.kind ≠ .constructor := by
  have hName := Record.recordName_of_synthesize synthesized
  have hMembers : set.userMembers = record.members := by
    obtain ⟨base, copy, -, -, rfl⟩ := Record.synthesize_eq_ok_iff.mp synthesized
    rfl
  refine ⟨?_, ?_, set.precedes_members, ?_, set.members_eq_constructors_append⟩
  · intro position member hMember
    refine ⟨_, MemberSet.filter_members_declared (by rwa [hMembers]), ?_⟩
    rw [hName]
    exact MemberSymbol.shows_ofMember record.name position member
  · intro symbol hSymbol position hOrigin
    rw [← hMembers]
    exact MemberSet.declared_of_mem_members hSymbol hOrigin
  · intro symbol hSymbol
    simpa using (List.mem_filter.mp hSymbol).2

def notebook : Record where
  name := "Notebook"
  parameters := [{ name := "Title", type := Ty.string }]
  members :=
    [.ofMethod "Clear" [] none, .ofField "pages" Ty.int, .ofConstructor [{ name := "pages", type := Ty.int }] 1,
      .ofAutoProperty "Owner" Ty.string, .ofMethod "Close" [] none]

theorem view_keeps_declared_members_notebook :
    ∃ set, (notebook.synthesize notebook.effectiveMembers none {}).outcome = .ok set ∧
      (set.members.map (·.origin)).filter (· ≠ .synthesized) = [.user 2, .user 3, .user 1, .user 0, .user 4] ∧
      (∃ symbol, (set.members.filter fun entry => entry.origin = .user 2) = [symbol] ∧
        symbol.Shows "Notebook" (.ofConstructor [{ name := "pages", type := Ty.int }] 1)) ∧
      set.members.Pairwise MemberSymbol.Precedes ∧
      ∃ others, set.members = set.constructors ++ others ∧ ∀ symbol ∈ others, symbol.kind ≠ .constructor := by
  have made : (notebook.synthesize notebook.effectiveMembers none {}).outcome = .ok _ := rfl
  obtain ⟨hEach, -, hOrder, -, hFront⟩ := view_keeps_declared_members notebook _ none {} _ made
  exact ⟨_, made, by decide +kernel, hEach 2 _ rfl, hOrder, hFront⟩

end RecordSynthesis
