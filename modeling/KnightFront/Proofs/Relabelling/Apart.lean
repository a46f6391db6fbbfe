import KnightFront.Proofs.Relabelling.Files
import KnightFront.Proofs.Symbols.Agreement
import Mathlib.Algebra.Order.BigOperators.Group.List

namespace KnightFront

/-!
# Names that a file does not use

A file consists of its tokens, so a relabelling that keeps its identifiers and
all places leaves the tree as it is, whatever becomes of other names.  These can
be moved away from every list of names, so what is on the list afterwards has
been kept.
-/

/-- A way to move all names but some, so that no other name comes to be on a
list. -/
structure MovesApart (kept avoided : List String) (move : String → String) : Prop where
  injective : Function.Injective move
  keeps : ∀ name ∈ kept, move name = name
  avoids : ∀ name, name ∉ kept → move name ∉ avoided

/-- Names can be moved away from every list: they are made longer than what is
on it. -/
theorem exists_movesApart (kept avoided : List String) : ∃ move, MovesApart kept avoided move := by
  let bound : Nat := ((kept ++ avoided).map String.length).sum
  let behind : String := String.ofList (List.replicate (bound + 1) 'x')
  have within {name : String} (member : name ∈ kept ++ avoided) : name.length ≤ bound :=
    List.le_sum_of_mem (List.mem_map_of_mem member)
  have beyond {name : String} : name ++ behind ∉ kept ++ avoided := by
    intro member
    have short := within member
    rw [String.length_append, String.length_ofList, List.length_replicate] at short
    omega
  refine ⟨fun name => if name ∈ kept then name else name ++ behind, ?_, ?_, ?_⟩
  · intro first second same
    dsimp only at same
    split at same <;> split at same
    · exact same
    · next isKept _ => exact absurd (List.mem_append_left _ (same ▸ isKept)) beyond
    · next isKept => exact absurd (List.mem_append_left _ (same ▸ isKept)) beyond
    · exact (String.append_left_inj behind).mp same
  · exact fun name isKept => if_pos isKept
  · intro name isMoved
    rw [if_neg isMoved]
    exact fun member => beyond (List.mem_append_right _ member)

namespace MovesApart

variable {kept avoided : List String} {move : String → String}

/-- What is on the list afterwards has been kept. -/
theorem mem_kept (moves : MovesApart kept avoided move) {name : String}
    (member : move name ∈ avoided) : name ∈ kept := by
  by_contra isMoved
  exact moves.avoids name isMoved member

end MovesApart

theorem Item.topNames_relabel (change : Relabelling) (item : Item) :
    (item.relabel change).topNames = item.topNames.map change.name := by
  cases item with
  | enumeration decl => simp [relabel, topNames, EnumDecl.relabel]
  | _ => rfl

theorem Program.topNames_relabel (change : Relabelling) (program : Program) :
    (program.relabel change).topNames = program.topNames.map change.name := by
  simp [topNames, relabel, Item.topNames_relabel, List.flatMap_map, List.map_flatMap]

/-- The identifiers in a file. -/
def SourceFile.identifiers (file : SourceFile) : List String :=
  match tokenize file.name file.text with
  | .ok tokens => (tokens.filter fun token => token.kind = .identifier).map Token.value
  | .error _ => []

theorem SourceFile.identifiers_of_letters {file : SourceFile} {letters : List Char}
    (spelled : SpelledBy file.text letters) :
    file.identifiers =
      match tokensFrom (.start file.name) letters with
      | .ok tokens => (tokens.filter fun token => token.kind = .identifier).map Token.value
      | .error _ => [] := by
  rw [identifiers, spelled.tokenize]

/-- A relabelling that leaves some names and all places alone. -/
structure Relabelling.Keeps (names : List String) (change : Relabelling) : Prop where
  name : ∀ name ∈ names, change.name name = name
  start : change.start = id
  finish : change.finish = id

variable {change : Relabelling}

theorem Relabelling.keeps_identity (names : List String) : identity.Keeps names :=
  ⟨fun _ _ => rfl, rfl, rfl⟩

/-- A token stays as it is if it is no identifier or one that is kept. -/
theorem Relabelling.Keeps.relabel_token {names : List String} (keeps : change.Keeps names)
    {token : Token} (used : token.kind = .identifier → token.value ∈ names) :
    token.relabel change = token := by
  have value : change.value token.kind token.value = token.value := by
    unfold Relabelling.value
    split
    · next isIdentifier => exact keeps.name _ (used isIdentifier)
    · rfl
  have span : token.span.relabel change = token.span := by
    rw [Span.relabel, keeps.start, keeps.finish]
    rfl
  rw [Token.relabel, value, span]

theorem SourceFile.mem_identifiers {file : SourceFile} {tokens : List Token}
    (read : tokenize file.name file.text = .ok tokens) {token : Token} (member : token ∈ tokens)
    (isIdentifier : token.kind = .identifier) : token.value ∈ file.identifiers := by
  rw [identifiers, read]
  exact List.mem_map_of_mem (List.mem_filter.mpr ⟨member, decide_eq_true isIdentifier⟩)

/-- A file speaks of some names at most: its tree stays as it is whatever becomes of
others. -/
def Program.SpeaksOf (names : List String) (program : Program) : Prop :=
  ∀ change : Relabelling, change.Keeps names → program.relabel change = program

namespace Program

variable {names : List String} {program : Program}

theorem SpeaksOf.mono {more : List String} (speaks : program.SpeaksOf names)
    (subset : names ⊆ more) : program.SpeaksOf more :=
  fun change keeps => speaks change ⟨fun name member => keeps.name name (subset member),
    keeps.start, keeps.finish⟩

/-- A file takes up names that it speaks of. -/
theorem SpeaksOf.topNames_subset (speaks : program.SpeaksOf names) : program.topNames ⊆ names := by
  obtain ⟨move, moves⟩ := exists_movesApart names program.topNames
  have same := speaks ⟨move, id, id, id⟩ ⟨moves.keeps, rfl, rfl⟩
  intro name member
  refine moves.mem_kept ?_
  rw [← same, topNames_relabel]
  exact List.mem_map_of_mem member

/-- A file speaks of its identifiers. -/
theorem speaksOf_identifiers {file : SourceFile}
    (read : ofSource file.name file.text = .ok program) : program.SpeaksOf file.identifiers := by
  intro change keeps
  obtain ⟨tokens, tokenized⟩ := exists_tokenize_of_ofSource read
  have same : tokens.map (Token.relabel .identity) = tokens.map (Token.relabel change) := by
    refine List.map_congr_left fun token member => ?_
    have used := SourceFile.mem_identifiers tokenized member
    rw [(Relabelling.keeps_identity _).relabel_token used, keeps.relabel_token used]
  have outcome := outcome_ofSource tokenized tokenized
    (fun _ _ => by rw [keeps.start, keeps.finish]) (fun _ _ => rfl) same
  simpa [read] using outcome.symm

end Program

end KnightFront
