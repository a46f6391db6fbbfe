import KnightFront.Proofs.Edits.SpoiledExpr
import KnightFront.Proofs.Relabelling.Scopes
import KnightFront.Proofs.Retyping.Models
import KnightFront.Proofs.Retyping.Trees

namespace KnightFront

/-!
# Names with an unknown type in reach

A name refers to the same in reach of retyped variables, but for the type of a
variable.  A member is sought behind a receiver of the unknown type in no class,
so it stays unbound, and this is not reported.
-/

open Analysis Resolution Typing

variable {unknown : String}

/-- A binding of a variable of the same type or the unknown one. -/
structure Binding.Retyped (unknown : String) (binding other : Binding) : Prop where
  ty : binding.ty.Retyped unknown other.ty
  entity? : Option.Rel (fun entity partner => entity.ty.Retyped unknown partner.ty)
    binding.entity? other.entity?

namespace Binding.Retyped

theorem refl (binding : Binding) : binding.Retyped unknown binding where
  ty := .same _
  entity? := by
    cases binding.entity? with
    | none => exact .none
    | some entity => exact .some (.same _)

end Binding.Retyped

/-- What can become of the use of a name: it is bound to a variable of the same
type or the unknown one, or it stays unbound. -/
inductive NameUse.Strays (unknown : String) : NameUse → NameUse → Prop where
  | bound (used : NameUse) {binding other : Binding} (retyped : binding.Retyped unknown other) :
      Strays unknown { used with binding := some binding } { used with binding := some other }
  | lost {used other : NameUse} (unbound : other.binding = none) : Strays unknown used other

namespace NameUse.Strays

variable {used other : NameUse} (strays : used.Strays unknown other)

include strays

theorem boundTy : used.boundTy.Strays unknown other.boundTy := by
  cases strays with
  | bound used retyped => exact retyped.ty.strays
  | lost unbound =>
      rw [boundTy_of_unbound unbound]
      exact .toError _

theorem targetTy {kind : Finding → Bool} :
    (targetTy used).Strays unknown kind (Typing.targetTy other) := by
  intro clean
  cases strays with
  | @bound used binding partner retyped =>
      have entities := retyped.entity?
      unfold Typing.targetTy at clean ⊢
      dsimp only at clean ⊢
      generalize binding.entity? = first at entities clean
      generalize partner.entity? = second at entities
      cases entities with
      | none => exact absurd clean (Reported.errors_report_bind_ne_zero rfl)
      | some ty => exact ⟨rfl, ty.strays⟩
  | lost unbound =>
      rw [targetTy_of_unbound unbound]
      exact ⟨rfl, .toError _⟩

end NameUse.Strays

/-- Methods with the same head in classes of the same name are bound alike. -/
theorem map_methodBinding_eq {found partner : Option (ClassRecord × FunctionRecord)}
    (rel : Option.Rel (fun found partner => partner.1.name = found.1.name ∧
      found.2.SameHead partner.2) found partner) :
    (partner.map fun (owner, method) => methodBinding owner.name method) =
      found.map fun (owner, method) => methodBinding owner.name method := by
  cases rel with
  | none => rfl
  | some same =>
      simp only [Option.map_some, methodBinding, same.1, same.2.name, same.2.signature]

/-- A scope that is the same but for the types of its variables. -/
structure Scope.Retyped (unknown : String) (scope other : Scope) : Prop where
  parent : other.parent = scope.parent
  kind : other.kind = scope.kind
  entries : List.Forall₂ (Variable.Retyped unknown) scope.entries.entries other.entries.entries

namespace Scopes

variable {scopes others : List Scope} (retyped : List.Forall₂ (Scope.Retyped unknown) scopes others)

include retyped

theorem declares_of_retyped (identity : ScopeId) (name : String) :
    declares others identity name = declares scopes identity name := by
  have both := rel_getElem? retyped identity
  unfold declares
  revert both
  cases scopes[identity]? <;> cases others[identity]? <;> intro both <;> cases both
  · rfl
  · next same => exact Table.contains_of_forall₂ (fun _ _ same => same.name) same.entries name

theorem rel_lookupWithin (name : String) (steps : Nat) (identity : ScopeId) :
    Option.Rel (fun found partner => found.1.Retyped unknown partner.1 ∧ partner.2 = found.2)
      (lookupWithin scopes name steps identity) (lookupWithin others name steps identity) := by
  induction steps generalizing identity with
  | zero => exact .none
  | succ steps inductionHypothesis =>
      have both := rel_getElem? retyped identity
      unfold lookupWithin
      revert both
      cases scopes[identity]? <;> cases others[identity]? <;> intro both <;> cases both
      · exact .none
      · next scope other same =>
          have found := Table.rel_find? (fun _ _ same => same.name) same.entries name
          dsimp only
          revert found
          cases scope.entries.find? name <;> cases other.entries.find? name <;> intro found <;>
            cases found
          · rw [same.parent]
            cases scope.parent with
            | none => exact .none
            | some parent => exact inductionHypothesis parent
          · next entity => exact .some ⟨entity, same.kind⟩

theorem retyped_declare {entity partner : Variable} (entities : entity.Retyped unknown partner)
    (identity : ScopeId) :
    List.Forall₂ (Scope.Retyped unknown) (declare scopes identity entity)
      (declare others identity partner) := by
  refine forall₂_modify retyped (fun scope other same => ?_) identity
  exact ⟨same.parent, same.kind,
    Table.forall₂_add_entry (fun _ _ same => same.name) same.entries entities⟩

theorem retyped_opened (parent : Option ScopeId) (kind : ScopeKind) :
    List.Forall₂ (Scope.Retyped unknown) (scopes ++ [.opened parent kind])
      (others ++ [.opened parent kind]) :=
  List.rel_append retyped (.cons ⟨rfl, rfl, .nil⟩ .nil)

end Scopes

/-- A place of an accepted program, and the place in a program with retyped
variables that corresponds to it. -/
structure RetypedSite (unknown : String) (place other : NamePlace) (scopes others : List Scope) :
    Prop where
  site : Site (fun _ => True) place scopes
  strange : place.model.isTypeName unknown = false
  model : place.model.Retyped unknown other.model
  className : other.className = place.className
  scope : other.scope = place.scope
  functionScopes : other.functionScopes = place.functionScopes
  scopes : List.Forall₂ (Scope.Retyped unknown) scopes others

namespace RetypedSite

variable {place other : NamePlace} {scopes others : List Scope}
  (site : RetypedSite unknown place other scopes others)

include site

theorem rel_findScoped? (name : String) :
    Option.Rel (Binding.Retyped unknown) (findScoped? place scopes name)
      (findScoped? other others name) := by
  unfold findScoped?
  rw [site.scope]
  cases place.scope with
  | none => exact .none
  | some scope =>
      have steps := site.scopes.length_eq
      rw [Option.bind_some, Option.bind_some]
      unfold Scopes.lookup
      rw [← steps]
      refine rel_map (Scopes.rel_lookupWithin site.scopes name _ scope) ?_
      rintro ⟨entity, _⟩ ⟨partner, kind⟩ ⟨entities, rfl⟩
      cases kind with
      | parameters => exact ⟨entities.ty, .some entities.ty⟩
      | block => exact ⟨entities.ty, .some entities.ty⟩

theorem rel_findOwnField? (name : String) :
    Option.Rel (Binding.Retyped unknown) (findOwnField? place name)
      (findOwnField? other name) := by
  unfold findOwnField?
  rw [site.className]
  cases place.className with
  | none => exact .none
  | some className =>
      exact rel_map (site.model.rel_findField? className name) fun _ _ found =>
        ⟨found.2.ty, .some found.2.ty⟩

theorem findOwnMethod?_eq (name : String) : findOwnMethod? other name = findOwnMethod? place name := by
  unfold findOwnMethod?
  rw [site.className]
  cases place.className with
  | none => rfl
  | some className => exact map_methodBinding_eq (site.model.rel_findMethod? className name)

theorem rel_findGlobal? (name : String) :
    Option.Rel (Binding.Retyped unknown) (findGlobal? place name) (findGlobal? other name) :=
  rel_map (site.model.rel_global? name) fun _ _ entities => ⟨entities.ty, .some entities.ty⟩

theorem findFunction?_eq (name : String) : findFunction? other name = findFunction? place name := by
  have both := site.model.rel_function? name
  unfold findFunction?
  revert both
  cases place.model.function? name <;> cases other.model.function? name <;> intro both <;> cases both
  · rfl
  · next same => rw [Option.map_some, Option.map_some, same.name, same.signature]

theorem rel_findValue? (name : String) :
    Option.Rel (Binding.Retyped unknown) (findValue? place scopes name)
      (findValue? other others name) := by
  have same (found : Option Binding) : Option.Rel (Binding.Retyped unknown) found found := by
    cases found with
    | none => exact .none
    | some binding => exact .some (.refl binding)
  unfold findValue?
  rw [site.findOwnMethod?_eq, site.findFunction?_eq]
  exact rel_or (site.rel_findScoped? name) (rel_or (site.rel_findOwnField? name)
    (rel_or (same _) (rel_or (site.rel_findGlobal? name) (same _))))

theorem bindCallee_eq (callee : NameUse) : bindCallee other callee = bindCallee place callee := by
  have found : findCallee? other callee.text = findCallee? place callee.text := by
    rw [findCallee?, findCallee?, site.findOwnMethod?_eq, site.findFunction?_eq]
  rw [bindCallee, bindCallee, found]

theorem bindInstance_eq (className : NameUse) :
    bindInstance other className = bindInstance place className := by
  rw [bindInstance, bindInstance, site.model.contains_classes, site.model.interfaces]

theorem bindParent_eq (parent : NameUse) : bindParent other parent = bindParent place parent := by
  have both := site.model.rel_class? parent.text
  unfold bindParent
  revert both
  cases place.model.class? parent.text <;> cases other.model.class? parent.text <;> intro both <;>
    cases both <;> rfl

theorem bindInterface_eq (base : NameUse) : bindInterface other base = bindInterface place base := by
  have found : other.model.interface? base.text = place.model.interface? base.text := by
    rw [SymbolModel.interface?, SymbolModel.interface?, site.model.interfaces]
  rw [bindInterface, bindInterface, found]

theorem checkTy_eq (ty : Ty) (position : Position) :
    checkTy other ty position = checkTy place ty position := by
  unfold checkTy
  split
  · rw [site.model.isTypeName_eq]
  · rfl

theorem checkHead_eq (head : FunctionHead) : checkHead other head = checkHead place head := by
  unfold checkHead
  simp only [site.checkTy_eq]

/-- A value that is bound without error is bound to the same, but for its type. -/
theorem strays_bindValue {kind : Finding → Bool} {used : NameUse}
    (clean : (bindValue place scopes used).tally Finding.isError = 0) :
    (bindValue other others used).tally kind = 0 ∧
      (bindValue place scopes used).value.Strays unknown (bindValue other others used).value := by
  have both := site.rel_findValue? used.text
  unfold bindValue at clean ⊢
  generalize findValue? place scopes used.text = first at both clean
  generalize findValue? other others used.text = second at both
  cases both with
  | none => simp [bindName, Problem.isError, Problem.severity] at clean
  | some retyped => exact ⟨rfl, .bound used retyped⟩

theorem contains_classes_unknown : other.model.classes.contains unknown = false := by
  have strange := site.strange
  rw [← site.model.isTypeName_eq, SymbolModel.isTypeName, Bool.or_eq_false_iff] at strange
  exact strange.1

theorem contains_interfaces_unknown : other.model.interfaces.contains unknown = false := by
  have strange := site.strange
  rw [← site.model.isTypeName_eq, SymbolModel.isTypeName, Bool.or_eq_false_iff] at strange
  exact strange.2

/-- A method is not sought in the unknown type. -/
theorem bindMethod_unknown (callee : NameUse) :
    bindMethod other (some (.named unknown)) callee = pure callee := by
  simp only [bindMethod, site.contains_classes_unknown, site.contains_interfaces_unknown,
    Bool.false_eq_true, if_false]

/-- A field is not sought in the unknown type. -/
theorem bindField_unknown (used : NameUse) :
    bindField other (some (.named unknown)) used = pure used := by
  simp only [bindField, site.contains_classes_unknown, site.contains_interfaces_unknown,
    Bool.false_eq_true, if_false]

theorem bindMethod_eq (owner : String) (callee : NameUse) :
    bindMethod other (some (.named owner)) callee =
      bindMethod place (some (.named owner)) callee := by
  simp only [bindMethod, site.model.contains_classes, site.model.interfaces,
    site.model.findInterfaceMethod?_eq,
    map_methodBinding_eq (site.model.rel_findMethod? owner callee.text)]

/-- A field that is bound without error is bound to the same, but for its type. -/
theorem strays_bindField {kind : Finding → Bool} {owner : String} {used : NameUse}
    (known : place.model.isTypeName owner = true)
    (clean : (bindField place (some (.named owner)) used).tally Finding.isError = 0) :
    (bindField other (some (.named owner)) used).tally kind = 0 ∧
      (bindField place (some (.named owner)) used).value.Strays unknown
        (bindField other (some (.named owner)) used).value := by
  have both := site.model.rel_findField? owner used.text
  simp only [bindField, site.model.contains_classes, site.model.interfaces] at clean ⊢
  split at clean
  next isClass =>
    rw [if_pos isClass, if_pos isClass]
    generalize place.model.findField? owner used.text = first at both clean
    generalize other.model.findField? owner used.text = second at both
    cases both with
    | none => simp [bindName, Problem.isError, Problem.severity] at clean
    | some found => exact ⟨rfl, .bound used ⟨found.2.ty, .some found.2.ty⟩⟩
  next noClass =>
    rw [SymbolModel.isTypeName, Bool.or_eq_true] at known
    rw [if_pos (known.resolve_left noClass)] at clean
    simp [bindName, Problem.isError, Problem.severity] at clean

end RetypedSite

end KnightFront
