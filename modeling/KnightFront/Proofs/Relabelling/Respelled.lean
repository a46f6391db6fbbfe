import KnightFront.Proofs.Relabelling.Files
import Mathlib.Logic.Equiv.Basic

namespace KnightFront

/-!
# The spelling of names and the verdict

Whether files are accepted does not depend on how their names are spelled, so
long as different names stay different and builtin functions are called by their
names -- except through interfaces.  An interface may extend others that declare
one method differently; the extended interfaces are then followed in the order of
their names, and the first declaration found is the one that counts.  So the
verdict stays wherever each interface has methods of the same types under either
spelling.

Places do not matter to the verdict, and the names that messages show do not,
so both are dropped from the files before these are compared.
-/

/-- The content of a token spelled otherwise, if it is an identifier. -/
def TokenContent.respell (spelling : String → String) (content : TokenContent) : TokenContent :=
  (content.1, if content.1 = .identifier then spelling content.2 else content.2)

/-- A file of the same name that has the same tokens, but for the spelling of
identifiers. -/
structure SourceFile.Respelled (spelling : String → String) (file other : SourceFile) : Prop where
  name : other.name = file.name
  contents : contents? other.text.toList =
    (contents? file.text.toList).map (List.map (TokenContent.respell spelling))

theorem SourceFile.respelled_of_letters {spelling : String → String} {file other : SourceFile}
    {letters others : List Char} (spelled : SpelledBy file.text letters)
    (spelled' : SpelledBy other.text others) (name : other.name = file.name)
    (same : contents? others =
      (contents? letters).map (List.map (TokenContent.respell spelling))) :
    file.Respelled spelling other :=
  ⟨name, by rw [spelled.toList, spelled'.toList, same]⟩

/-- A spelling that keeps names apart and leaves builtin functions alone. -/
structure KeepsNames (spelling : String → String) : Prop where
  injective : Function.Injective spelling
  builtin : ∀ builtin ∈ Builtin.all, spelling builtin.name = builtin.name

/-- The relabelling that spells names otherwise and drops all else. -/
def Relabelling.respelling (spelling : String → String) : Relabelling :=
  ⟨spelling, fun _ => "", fun _ => .nowhere, fun _ => .nowhere⟩

/-- In each interface, the methods of two models have the same types, but for
the spelling of names. -/
def SymbolModel.InheritsAlike (spelling : String → String) (model other : SymbolModel) : Prop :=
  ∀ interface method found partner,
    model.findInterfaceMethod? interface method = some found →
    other.findInterfaceMethod? (spelling interface) (spelling method) = some partner →
      partner.2.signature.parameterTys =
          found.2.signature.parameterTys.map (Ty.relabel (.respelling spelling)) ∧
        partner.2.signature.returnTy =
          found.2.signature.returnTy.relabel (.respelling spelling)

/-- All declarations of a method that one interface has, be it from extended
interfaces, have the same types. -/
def SymbolModel.Coherent (model : SymbolModel) : Prop :=
  ∀ interface ∈ model.interfaces.entries,
    ∀ first ∈ model.interfaceClosure interface.name,
      ∀ second ∈ model.interfaceClosure interface.name,
        ∀ method ∈ first.methods.entries, ∀ other ∈ second.methods.entries,
          method.name = other.name → method.signature.agrees other.signature = true

instance (model : SymbolModel) : Decidable model.Coherent :=
  inferInstanceAs (Decidable (∀ interface ∈ model.interfaces.entries,
    ∀ first ∈ model.interfaceClosure interface.name,
      ∀ second ∈ model.interfaceClosure interface.name,
        ∀ method ∈ first.methods.entries, ∀ other ∈ second.methods.entries,
          method.name = other.name → method.signature.agrees other.signature = true))

variable {spelling : String → String}

theorem Relabelling.discreet_respelling : (Relabelling.respelling spelling).Discreet :=
  discreet_of_hidden fun _ => rfl

namespace KeepsNames

theorem identity : KeepsNames id := ⟨Function.injective_id, fun _ _ => rfl⟩

theorem lawful (keeps : KeepsNames spelling) : (Relabelling.respelling spelling).Lawful :=
  ⟨keeps.injective, fun _ => rfl⟩

end KeepsNames

/-- A respelled file is read alike. -/
theorem SourceFile.Respelled.outcome_ofSource {file other : SourceFile}
    (respelled : file.Respelled spelling other) {tokens : List Token}
    (read : tokenize file.name file.text = .ok tokens) :
    (Relabelling.respelling id).outcome (Program.relabel (.respelling id))
        (Program.ofSource other.name other.text) =
      (Relabelling.respelling spelling).outcome (Program.relabel (.respelling spelling))
        (Program.ofSource file.name file.text) := by
  have listed := respelled.contents
  rw [contents?_of_tokenize read] at listed
  obtain ⟨tokens', read', contents⟩ := exists_tokenize_of_contents? listed file.name
  rw [respelled.name]
  refine Program.outcome_ofSource read read' (fun _ _ => rfl) (fun _ _ => rfl) ?_
  have same (spelling : String → String) (tokens : List Token) :
      tokens.map (Token.relabel (.respelling spelling)) =
        (tokens.map Token.content).map fun content =>
          ⟨(content.respell spelling).1, (content.respell spelling).2, ⟨.nowhere, .nowhere⟩⟩ := by
    rw [List.map_map]
    rfl
  calc
    tokens'.map (Token.relabel (.respelling id)) =
        (tokens.map Token.content).map fun content =>
          ⟨((content.respell spelling).respell id).1, ((content.respell spelling).respell id).2,
            ⟨.nowhere, .nowhere⟩⟩ := by
      rw [same, contents, List.map_map]
      rfl
    _ = (tokens.map Token.content).map fun content =>
          ⟨(content.respell spelling).1, (content.respell spelling).2, ⟨.nowhere, .nowhere⟩⟩ := by
      refine List.map_congr_left fun content _ => ?_
      by_cases named : content.1 = .identifier <;> simp [TokenContent.respell, named]
    _ = tokens.map (Token.relabel (.respelling spelling)) := (same _ _).symm

/-- Respelled files are read if the files are, and the trees are respelled. -/
theorem exists_readFiles_of_respelled {files others : List SourceFile} {programs : List Program}
    (respelled : List.Forall₂ (SourceFile.Respelled spelling) files others)
    (read : readFiles files = .ok programs) :
    ∃ programs', readFiles others = .ok programs' ∧
      programs'.map (Program.relabel (.respelling id)) =
        programs.map (Program.relabel (.respelling spelling)) := by
  obtain ⟨tree, each, -⟩ := exists_tree_of_readFiles read
  have alike := outcome_readFiles <|
    ((List.forall₂_and_left _ _).mpr ⟨each, respelled⟩).imp fun file other pair => by
      obtain ⟨tokens, tokenized⟩ := exists_tokenize_of_ofSource pair.1
      exact pair.2.outcome_ofSource tokenized
  rw [read] at alike
  cases others : readFiles others with
  | error failure => simp [others] at alike
  | ok programs' => exact ⟨programs', rfl, by simpa [others] using alike⟩

/-- Of functions that are respelled, only names and types count. -/
theorem FunctionRecord.alike_respelling_iff {record other : FunctionRecord} :
    record.Alike (.respelling spelling) other ↔
      other.name = spelling record.name ∧
        other.signature.parameterTys =
            record.signature.parameterTys.map (Ty.relabel (.respelling spelling)) ∧
          other.signature.returnTy = record.signature.returnTy.relabel (.respelling spelling) := by
  constructor
  · intro alike
    exact ⟨alike.name, Signature.types_of_masked alike.signature⟩
  · rintro ⟨name, parameters, returns⟩
    have bare (change : Relabelling) (dropped : ∀ name, change.hidden name = "")
        (signature : Signature) : signature.relabel change =
          ⟨(signature.parameterTys.map (Ty.relabel change)).map fun ty => ("", ty),
            signature.returnTy.relabel change⟩ := by
      simp [Signature.relabel, Signature.parameterTys, dropped, Function.comp_def]
    refine ⟨name, ?_⟩
    calc
      other.signature.relabel (Relabelling.respelling spelling).mask =
          ⟨(other.signature.parameterTys.map (Ty.relabel (Relabelling.respelling spelling).mask)).map
            fun ty => ("", ty),
            other.signature.returnTy.relabel (Relabelling.respelling spelling).mask⟩ :=
        bare _ (fun _ => rfl) _
      _ = ⟨(record.signature.parameterTys.map (Ty.relabel (.respelling spelling))).map
            fun ty => ("", ty),
            record.signature.returnTy.relabel (.respelling spelling)⟩ := by
        rw [parameters, returns, Ty.relabel_mask, List.map_id]
        rfl
      _ = record.signature.relabel (.respelling spelling) := (bare _ (fun _ => rfl) _).symm

theorem SymbolModel.name_of_findInterfaceMethod? {model : SymbolModel} {interface method : String}
    {found : InterfaceRecord × FunctionRecord}
    (present : model.findInterfaceMethod? interface method = some found) :
    found.2.name = method := by
  obtain ⟨owner, -, search⟩ := List.exists_of_findSome?_eq_some present
  obtain ⟨record, member, rfl⟩ := Option.map_eq_some_iff.mp search
  exact Table.nameOf_of_find? member

/-- The methods of a model and of a common relabelling correspond, if those of
the other model are alike. -/
theorem SymbolModel.InheritsAlike.along {model other common : SymbolModel}
    (inherits : model.InheritsAlike spelling other) (keeps : KeepsNames spelling)
    (forth : model.Corresponds (.respelling spelling) common)
    (back : other.Corresponds (.respelling id) common) :
    model.InheritsAlong (.respelling spelling) common := by
  intro interface method
  have present := isSome_findInterfaceMethod?_relabel keeps.injective
    (forth.findsInterfaces keeps.injective) interface method
  have ordered : Option.Rel (fun found partner => "" = "" ∧ found.2.Alike (.respelling id) partner.2)
      (other.findInterfaceMethod? (spelling interface) (spelling method))
      (common.findInterfaceMethod? (spelling interface) (spelling method)) :=
    inheritsAlong Function.injective_id (back.findsOrdered Function.injective_id rfl) _ _
  change Option.Rel _ _ (common.findInterfaceMethod? (spelling interface) (spelling method))
  change (common.findInterfaceMethod? (spelling interface) (spelling method)).isSome = _ at present
  cases found : model.findInterfaceMethod? interface method with
  | none =>
      rw [found] at present
      rw [Option.not_isSome_iff_eq_none.mp (Bool.eq_false_iff.mp present)]
      exact .none
  | some record =>
      obtain ⟨partner, foundCommon⟩ := Option.isSome_iff_exists.mp (found ▸ present)
      rw [foundCommon] at ordered ⊢
      cases foundOther : other.findInterfaceMethod? (spelling interface) (spelling method) with
      | none => rw [foundOther] at ordered; cases ordered
      | some middle =>
          rw [foundOther] at ordered
          cases ordered with
          | some ordered =>
              obtain ⟨-, parameters, returns⟩ := FunctionRecord.alike_respelling_iff.mp ordered.2
              have types := inherits interface method record middle found foundOther
              have unchanged : Ty.relabel (.respelling id) = id :=
                funext (Ty.relabel_of_name rfl)
              rw [unchanged, List.map_id] at parameters
              rw [unchanged] at returns
              refine .some ⟨rfl, FunctionRecord.alike_respelling_iff.mpr
                ⟨?_, parameters.trans types.1, returns.trans types.2⟩⟩
              rw [name_of_findInterfaceMethod? found, name_of_findInterfaceMethod? foundCommon]

/-- A method of a respelled interface comes from a method of the interface. -/
theorem SymbolModel.exists_method_of_respelled {model other common : SymbolModel}
    (keeps : KeepsNames spelling) (forth : model.Corresponds (.respelling spelling) common)
    (back : other.Corresponds (.respelling id) common) {interface method : String}
    {partner : InterfaceRecord × FunctionRecord}
    (found : other.findInterfaceMethod? (spelling interface) (spelling method) = some partner) :
    ∃ owner ∈ model.interfaceClosure interface, ∃ record ∈ owner.methods.entries,
      record.name = method ∧
        partner.2.signature.parameterTys =
            record.signature.parameterTys.map (Ty.relabel (.respelling spelling)) ∧
          partner.2.signature.returnTy =
            record.signature.returnTy.relabel (.respelling spelling) := by
  have named := name_of_findInterfaceMethod? found
  obtain ⟨owner', inClosure, search⟩ := List.exists_of_findSome?_eq_some found
  obtain ⟨record', listed, rfl⟩ := Option.map_eq_some_iff.mp search
  obtain ⟨_, isPending, reaches⟩ := mem_closureWithin_iff.mp inClosure
  obtain rfl := List.mem_singleton.mp isPending
  -- The owner is reached in the common model, and from there one is in the first model.
  obtain ⟨middle, owners', reaches⟩ := reaches.relabel (back.findsInterfaces Function.injective_id)
  have reaches : Reaches common.interfaces.entries
      ((Relabelling.respelling spelling).name interface) middle := reaches
  obtain ⟨owner, owners, reaches⟩ := reaches.of_relabel (forth.findsInterfaces keeps.injective)
  obtain ⟨common', member', moved'⟩ :=
    exists_of_mem_forall₂ owners'.methods.flip (Table.mem_of_find? listed)
  obtain ⟨record, member, moved⟩ := exists_of_mem_forall₂ owners.methods member'
  obtain ⟨name', parameters', returns'⟩ := FunctionRecord.alike_respelling_iff.mp moved'.toAlike
  obtain ⟨name, parameters, returns⟩ := FunctionRecord.alike_respelling_iff.mp moved.toAlike
  have unchanged : Ty.relabel (.respelling id) = id := funext (Ty.relabel_of_name rfl)
  rw [unchanged] at parameters' returns'
  rw [List.map_id] at parameters'
  refine ⟨owner, mem_closureWithin_iff.mpr ⟨interface, List.mem_singleton_self _, reaches⟩, record,
    member, keeps.injective ?_, parameters'.symm.trans parameters, returns'.symm.trans returns⟩
  rw [← name, name', named, id]

/-- Where methods are declared alike in all extended interfaces, it does not
matter in which order these are followed. -/
theorem SymbolModel.Coherent.inheritsAlike {model other common : SymbolModel}
    (coherent : model.Coherent) (keeps : KeepsNames spelling)
    (forth : model.Corresponds (.respelling spelling) common)
    (back : other.Corresponds (.respelling id) common) : model.InheritsAlike spelling other := by
  intro interface method found partner present presentOther
  obtain ⟨owner, inClosure, record, declared, named, types⟩ :=
    exists_method_of_respelled keeps forth back presentOther
  have name := name_of_findInterfaceMethod? present
  obtain ⟨first, inClosure', search⟩ := List.exists_of_findSome?_eq_some present
  obtain ⟨method', listed, rfl⟩ := Option.map_eq_some_iff.mp search
  obtain ⟨_, isPending, reaches⟩ := mem_closureWithin_iff.mp inClosure'
  obtain rfl := List.mem_singleton.mp isPending
  obtain ⟨root, member, isRoot⟩ := reaches.exists_named
  subst isRoot
  have agree := coherent root member first inClosure' owner inClosure method'
    (Table.mem_of_find? listed) record declared (name.trans named.symm)
  obtain ⟨returns, parameters⟩ := Signature.agrees_eq_true_iff.mp agree
  exact ⟨parameters ▸ types.1, returns ▸ types.2⟩

/-! ## The verdict -/

/-- Respelled files declare what corresponds. -/
theorem KeepsNames.corresponds_ofPrograms (keeps : KeepsNames spelling) (programs : List Program) :
    (SymbolModel.ofPrograms programs).value.Corresponds (.respelling spelling)
      (SymbolModel.ofPrograms (programs.map (Program.relabel (.respelling spelling)))).value :=
  (alike_ofPrograms keeps.lawful Relabelling.discreet_respelling keeps.builtin programs
    fun _ _ corresponds => corresponds.sameVerdict_cycleFindings keeps.injective).value

/-- Analysis keeps the model of the first pass. -/
theorem model_analyse (options : Options) (programs : List Program) :
    (analyse options programs).model = (SymbolModel.ofPrograms programs).value := by
  unfold analyse
  dsimp only
  split
  · rfl
  · split <;> rfl

/-- Whether files that can be read are accepted does not depend on the spelling of
names, as long as names are kept apart and builtin functions keep theirs: files in
which all identifiers are respelled can be read as well, and where every interface
has methods of the same types under both spellings, there is an error in both or
in none of them.  Interfaces have such methods if those that they extend never
declare one method with different types. -/
theorem hasErrors_of_respelled (keeps : KeepsNames spelling) {files others : List SourceFile}
    (respelled : List.Forall₂ (SourceFile.Respelled spelling) files others)
    {programs : List Program} (read : readFiles files = .ok programs) :
    ∃ first second : Options → Compilation,
      (∀ options, compile options files = .ok (first options)) ∧
      (∀ options, compile options others = .ok (second options)) ∧
      (∀ options, (first options).model.Coherent →
        (first options).model.InheritsAlike spelling (second options).model) ∧
      ∀ options, (first options).model.InheritsAlike spelling (second options).model →
        (second options).hasErrors = (first options).hasErrors := by
  obtain ⟨programs', read', same⟩ := exists_readFiles_of_respelled respelled read
  have forth := keeps.corresponds_ofPrograms programs
  have back := KeepsNames.identity.corresponds_ofPrograms programs'
  refine ⟨fun options => analyse options programs, fun options => analyse options programs',
    fun _ => by rw [compile, read]; rfl, fun _ => by rw [compile, read']; rfl,
    fun options coherent => ?_, fun options inherits => ?_⟩
  · rw [model_analyse] at coherent ⊢
    rw [model_analyse]
    exact coherent.inheritsAlike keeps forth (same ▸ back)
  · rw [model_analyse, model_analyse] at inherits
    have verdict := sameVerdict_findingsOf keeps.lawful Relabelling.discreet_respelling keeps.builtin
      (forall_of_readFiles read Program.scopes_ofSource) (inherits.along keeps forth (same ▸ back))
    have verdict' := sameVerdict_findingsOf KeepsNames.identity.lawful
      Relabelling.discreet_respelling KeepsNames.identity.builtin
      (forall_of_readFiles read' Program.scopes_ofSource)
      (SymbolModel.inheritsAlong Function.injective_id (back.findsOrdered Function.injective_id rfl))
    rw [same] at verdict'
    rw [hasErrors_analyse, hasErrors_analyse]
    exact verdict'.symm.trans verdict

/-- A file with an interface that extends two others, which both declare the
method that is called.  The first one declares it as a number. -/
def inheritingFile (first second returnTy : String) : SourceFile :=
  ⟨"main.knight", "interface " ++ first ++ " \x7b fn m(): int; \x7d interface " ++ second ++
    " \x7b fn m(): " ++ returnTy ++ "; \x7d interface I ext " ++ first ++ ", " ++ second ++
    " \x7b \x7d fn f(I i): void \x7b int x = i.m(); \x7d"⟩

/-- The letters of such a file. -/
def inheritingLetters (first second returnTy : List Char) :
    { letters // SpelledBy
      (inheritingFile (.ofList first) (.ofList second) (.ofList returnTy)).text letters } :=
  ⟨_, .append (.append (.append (.append (.append (.append (.append (.append (.append (.append
    .literal .literal) .literal) .literal) .literal) .literal) .literal) .literal) .literal)
    .literal) .literal⟩

/-- Two names exchanged are kept apart, and none of them is that of a builtin
function. -/
theorem keepsNames_swap : KeepsNames (Equiv.swap "A" "B") :=
  ⟨(Equiv.swap "A" "B").injective, by decide⟩

/-- Two identifiers exchanged are identifiers. -/
theorem isIdentifier_swap (name : String) (identifier : IsIdentifier name) :
    IsIdentifier (Equiv.swap "A" "B" name) := by
  rw [Equiv.swap_apply_def]
  split
  · exact ⟨⟨'B', [], rfl, rfl, nofun⟩, rfl⟩
  · split
    · exact ⟨⟨'A', [], rfl, rfl, nofun⟩, rfl⟩
    · exact identifier

/-- Where both declare a number, the names of the interfaces may be exchanged. -/
theorem hasErrors_inheritingFile :
    KeepsNames (Equiv.swap "A" "B") ∧
      List.Forall₂ (SourceFile.Respelled (Equiv.swap "A" "B")) [inheritingFile "A" "B" "int"]
        [inheritingFile "B" "A" "int"] ∧
      (∃ programs, readFiles [inheritingFile "A" "B" "int"] = .ok programs) ∧
      ∃ first second : Options → Compilation,
        (∀ options, compile options [inheritingFile "A" "B" "int"] = .ok (first options)) ∧
        (∀ options, compile options [inheritingFile "B" "A" "int"] = .ok (second options)) ∧
        (∀ options, (first options).model.InheritsAlike (Equiv.swap "A" "B")
          (second options).model) ∧
        ∀ options, (second options).hasErrors = (first options).hasErrors := by
  have respelled : List.Forall₂ (SourceFile.Respelled (Equiv.swap "A" "B"))
      [inheritingFile "A" "B" "int"] [inheritingFile "B" "A" "int"] :=
    .cons (SourceFile.respelled_of_letters (inheritingLetters ['A'] ['B'] ['i', 'n', 't']).2
      (inheritingLetters ['B'] ['A'] ['i', 'n', 't']).2 rfl (by decide +kernel)) .nil
  have checked : readWith (fun programs => decide (SymbolModel.ofPrograms programs).value.Coherent)
      [inheritingFile "A" "B" "int"] = true :=
    readWith_of_letters (.cons (inheritingLetters ['A'] ['B'] ['i', 'n', 't']).2 .nil)
      (by decide +kernel)
  obtain ⟨programs, read, isCoherent⟩ := exists_of_readWith checked
  obtain ⟨first, second, compiles, compiles', coherent, verdict⟩ :=
    hasErrors_of_respelled keepsNames_swap respelled read
  have inherits (options : Options) :
      (first options).model.InheritsAlike (Equiv.swap "A" "B") (second options).model := by
    refine coherent options ?_
    have outcome := compiles options
    rw [compile, read] at outcome
    rw [← Except.ok.inj outcome, model_analyse]
    exact of_decide_eq_true isCoherent
  exact ⟨keepsNames_swap, respelled, ⟨programs, read⟩, first, second, compiles, compiles', inherits,
    fun options => verdict options (inherits options)⟩

/-- Where the second one declares a text, the names of the interfaces decide about
the verdict. -/
theorem exists_respelled_of_other_verdict :
    ∃ (spelling : String → String) (files others : List SourceFile) (first second : Compilation),
      KeepsNames spelling ∧ (∀ name, IsIdentifier name → IsIdentifier (spelling name)) ∧
      List.Forall₂ (SourceFile.Respelled spelling) files others ∧
      compile {} files = .ok first ∧ compile {} others = .ok second ∧
      first.hasErrors = true ∧ second.hasErrors = false := by
  have refused : readWith (fun programs => (analyse {} programs).hasErrors)
      [inheritingFile "A" "B" "string"] = true := by
    refine readWith_of_letters
      (.cons (inheritingLetters ['A'] ['B'] ['s', 't', 'r', 'i', 'n', 'g']).2 .nil) ?_
    simp only [hasErrors_analyse_eq]
    decide +kernel
  have accepted : readWith (fun programs => !(analyse {} programs).hasErrors)
      [inheritingFile "B" "A" "string"] = true := by
    refine readWith_of_letters
      (.cons (inheritingLetters ['B'] ['A'] ['s', 't', 'r', 'i', 'n', 'g']).2 .nil) ?_
    simp only [hasErrors_analyse_eq]
    decide +kernel
  have respelled : List.Forall₂ (SourceFile.Respelled (Equiv.swap "A" "B"))
      [inheritingFile "A" "B" "string"] [inheritingFile "B" "A" "string"] :=
    .cons (SourceFile.respelled_of_letters
      (inheritingLetters ['A'] ['B'] ['s', 't', 'r', 'i', 'n', 'g']).2
      (inheritingLetters ['B'] ['A'] ['s', 't', 'r', 'i', 'n', 'g']).2 rfl (by decide +kernel)) .nil
  obtain ⟨programs, read, verdict⟩ := exists_of_readWith refused
  obtain ⟨programs', read', verdict'⟩ := exists_of_readWith accepted
  exact ⟨Equiv.swap "A" "B", _, _, analyse {} programs, analyse {} programs', keepsNames_swap,
    isIdentifier_swap, respelled, by rw [compile, read]; rfl, by rw [compile, read']; rfl, verdict,
    by simpa using verdict'⟩

end KnightFront
