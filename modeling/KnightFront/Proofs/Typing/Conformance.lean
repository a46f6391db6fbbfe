import KnightFront.Analysis.Compilation
import KnightFront.Proofs.Analysis.Reading
import KnightFront.Proofs.Symbols.Chains
import KnightFront.Proofs.Symbols.Reached
import KnightFront.Proofs.Symbols.TakesFirst

namespace KnightFront

/-!
# Keeping interfaces

A class keeps an interface if it has, or inherits, a method of the right signature
for each method that the interface declares.  It has to keep the interfaces that it
uses and whatever these extend.  The check walks through the extended interfaces
and, for each of their methods, through the ancestors of the class.  Both walks end
on every model, and what they come by is all that can be reached, so the check
reports nothing exactly if the class keeps every interface that it has to.
-/

namespace SymbolModel

/-- For each method of an interface, the nearest method of its name among a class
and its ancestors has the same parameter types, in order, and return type. -/
def Keeps (model : SymbolModel) (className : String) (interface : InterfaceRecord) : Prop :=
  ∀ required ∈ interface.methods.entries, ∃ owner found,
    Nearest (fun owner => owner.methods.find? required.name) (model.classChain className)
      (some (owner, found)) ∧
    found.signature.parameterTys = required.signature.parameterTys ∧
    found.signature.returnTy = required.signature.returnTy

end SymbolModel

namespace Typing

open SymbolModel

/-- The ways in which a class does not keep a method that an interface requires of
it. -/
def methodFindings (model : SymbolModel) (decl : ClassDecl) (used : NameUse)
    (interface : InterfaceRecord) (required : FunctionRecord) : List Finding :=
  match model.findMethod? decl.name required.name with
  | none => [⟨used.span.start, .missingMethod decl.name required.name interface.name⟩]
  | some (_, found) =>
      if found.signature.agrees required.signature then []
      else [⟨found.position, .mismatchedMethod decl.name required.name interface.name⟩]

/-- A required method is not reported exactly if the nearest one of its name has
its signature. -/
theorem methodFindings_eq_nil_iff (model : SymbolModel) (decl : ClassDecl) (used : NameUse)
    (interface : InterfaceRecord) (required : FunctionRecord) :
    methodFindings model decl used interface required = [] ↔ ∃ owner found,
      Nearest (fun owner => owner.methods.find? required.name) (model.classChain decl.name)
        (some (owner, found)) ∧
      found.signature.parameterTys = required.signature.parameterTys ∧
      found.signature.returnTy = required.signature.returnTy := by
  have nearest := model.nearest_findMethod? decl.name required.name
  rw [methodFindings]
  cases search : model.findMethod? decl.name required.name with
  | none =>
      rw [search] at nearest
      constructor
      · intro silent
        cases silent
      · rintro ⟨owner, found, isNearest, -⟩
        cases isNearest.findSome?_eq.symm.trans nearest.findSome?_eq
  | some pair =>
      rcases pair with ⟨owner, found⟩
      rw [search] at nearest
      dsimp only
      constructor
      · intro silent
        by_cases agrees : found.signature.agrees required.signature = true
        · rcases Signature.agrees_eq_true_iff.mp agrees with ⟨returnTy, parameterTys⟩
          exact ⟨owner, found, nearest, parameterTys, returnTy⟩
        · rw [if_neg agrees] at silent
          cases silent
      · rintro ⟨other, method, isNearest, parameterTys, returnTy⟩
        cases isNearest.findSome?_eq.symm.trans nearest.findSome?_eq
        exact if_pos (Signature.agrees_eq_true_iff.mpr ⟨returnTy, parameterTys⟩)

/-- A class whose declaration is the one that the model has taken up is not
reported for its interfaces exactly if it keeps each interface that it uses or
reaches from one that it uses. -/
theorem conformanceFindings_eq_nil_iff {model : SymbolModel} {decl : ClassDecl}
    {record : ClassRecord} (taken : model.class? decl.name = some record)
    (declares : record.position = decl.span.start) :
    conformanceFindings model decl = [] ↔ ∀ used ∈ decl.uses, ∀ interface,
      Reaches model.interfaces.entries used.text interface → model.Keeps decl.name interface := by
  have required (interface : InterfaceRecord) (method : FunctionRecord) :
      method ∈ interface.methods.sorted ↔ method ∈ interface.methods.entries :=
    (List.mergeSort_perm _ _).mem_iff
  have reached (name : String) (interface : InterfaceRecord) :
      interface ∈ model.interfaceClosure name ↔ Reaches model.interfaces.entries name interface :=
    by simp [interfaceClosure, mem_closureWithin_iff]
  have findings : conformanceFindings model decl =
      decl.uses.flatMap fun used => (model.interfaceClosure used.text).flatMap fun interface =>
        interface.methods.sorted.flatMap (methodFindings model decl used interface) := by
    rw [conformanceFindings, taken]
    exact if_neg (not_not.mpr declares)
  simp only [findings, List.flatMap_eq_nil_iff, reached, required, methodFindings_eq_nil_iff, Keeps]

/-- A file whose interfaces extend each other and an unknown one.  One class has what
they require, the one below it declares a method of theirs in another way. -/
def sharedInterfacesFile : SourceFile :=
  ⟨"shapes.kn", "interface I ext J, X \x7b fn id(): int; \x7d interface J ext I, K \x7b \x7d " ++
    "interface K ext I \x7b \x7d class Box use J, Y \x7b fn id(): int \x7b ret 1; \x7d \x7d " ++
    "class Ball ext Box use K \x7b fn id(): bool \x7b ret true; \x7d \x7d"⟩

/-- Whether programs declare a class of a name that the model has taken up, and that
is reported for its interfaces or not. -/
def conformsAs (programs : List Program) (name : String) (keeps : Bool) : Bool :=
  let model := (SymbolModel.ofPrograms programs).value
  ((programs.flatMap Program.items).flatMap Item.classDecls).any fun decl =>
    decide (decl.name = name) &&
      (model.class? decl.name).any (fun record => record.position = decl.span.start) &&
      decide ((conformanceFindings model decl = []) = (keeps = true))

/-- One of these classes keeps all interfaces that it has to, although some names
lead nowhere; the other one does not. -/
theorem conformanceFindings_eq_nil_iff_sharedInterfacesFile :
    ∃ programs, readFiles [sharedInterfacesFile] = .ok programs ∧
      let model := (SymbolModel.ofPrograms programs).value
      let decls := (programs.flatMap Program.items).flatMap Item.classDecls
      (∃ decl ∈ decls, decl.name = "Box" ∧ ∀ used ∈ decl.uses, ∀ interface,
        Reaches model.interfaces.entries used.text interface → model.Keeps decl.name interface) ∧
      ∃ decl ∈ decls, decl.name = "Ball" ∧ ¬ ∀ used ∈ decl.uses, ∀ interface,
        Reaches model.interfaces.entries used.text interface → model.Keeps decl.name interface := by
  have judged : readWith (fun programs => conformsAs programs "Box" true &&
      conformsAs programs "Ball" false) [sharedInterfacesFile] = true :=
    readWith_of_letters (.cons (.append (.append .literal .literal) .literal) .nil)
      (by decide +kernel)
  rcases exists_of_readWith judged with ⟨programs, read, verdicts⟩
  simp only [conformsAs, Bool.and_eq_true, List.any_eq_true, Option.any_eq_true,
    decide_eq_true_eq, eq_iff_iff, iff_true, Bool.false_eq_true, iff_false] at verdicts
  rcases verdicts with ⟨⟨box, isBox, ⟨boxNamed, _, boxTaken, boxDeclares⟩, keeps⟩,
    ball, isBall, ⟨ballNamed, _, ballTaken, ballDeclares⟩, breaks⟩
  refine ⟨programs, read, ⟨box, isBox, boxNamed, ?_⟩, ball, isBall, ballNamed, ?_⟩
  · exact (conformanceFindings_eq_nil_iff boxTaken boxDeclares).mp keeps
  · exact mt (conformanceFindings_eq_nil_iff ballTaken ballDeclares).mpr breaks

end Typing

end KnightFront
