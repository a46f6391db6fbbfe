import KnightFront.Proofs.Relabelling.Scopes

namespace KnightFront

/-!
# Resolving relabelled trees

Names of a relabelled tree are bound to the declarations that correspond to
those that the names of the tree are bound to, and the findings are relabelled.
What a binding hides may differ, so the trees are compared behind a mask.
-/

variable {change : Relabelling} {model other : SymbolModel}

/-- Trees that are the same when one is relabelled and the other masked. -/
abbrev Masked {α : Type} (relabel : Relabelling → α → α) (change : Relabelling) : α → α → Prop :=
  fun found other => relabel change.mask other = relabel change found

namespace Expr

mutual

theorem staticTy?_relabel : ∀ (expr : Expr),
    (expr.relabel change).staticTy? = expr.staticTy?.map (Ty.relabel change)
  | .int .. | .string .. | .bool .. | .newArray .. => rfl
  | .name _ used | .field _ _ used | .newInstance _ used => by
      simp [relabel, staticTy?, NameUse.relabel, Function.comp_def, Binding.ty_relabel]
  | .binary _ op left right => by
      have string (expr : Expr)
          (types : (expr.relabel change).staticTy? = expr.staticTy?.map (Ty.relabel change)) :
          (expr.relabel change).staticTy? = some .string ↔ expr.staticTy? = some .string := by
        simp [types]
      simp only [relabel, staticTy?, string left (staticTy?_relabel left),
        string right (staticTy?_relabel right)]
      split
      · rfl
      · split <;> rfl
  | .call _ callee _ | .methodCall _ _ callee _ => by
      cases bound : callee.binding <;>
        simp [relabel, staticTy?, NameUse.relabel, bound, Signature.relabel, Function.comp_def]
  | .index _ base _ => by
      cases decided : base.staticTy? <;> simp [relabel, staticTy?, staticTy?_relabel base, decided]
  | .array _ items => staticArrayTy?_relabel items

theorem staticArrayTy?_relabel : ∀ (items : List Expr),
    staticArrayTy? (relabelList change items) = (staticArrayTy? items).map (Ty.relabel change)
  | [] => rfl
  | first :: _ => by
      cases decided : first.staticTy? <;>
        simp [relabelList, staticArrayTy?, staticTy?_relabel first, decided]

end

/-- Trees that are the same behind a mask have the same types. -/
theorem staticTy?_of_masked {found other : Expr} (masked : Masked relabel change found other) :
    other.staticTy? = found.staticTy?.map (Ty.relabel change) := by
  have same := congrArg staticTy? masked
  simpa [staticTy?_relabel] using same

end Expr

/-- The corresponding place in a relabelled program. -/
def NamePlace.relabel (change : Relabelling) (other : SymbolModel) (place : NamePlace) :
    NamePlace :=
  { place with model := other, className := place.className.map change.name }

namespace Resolution

open Reported (Alike Follows alike_pure follows_report follows_reportIf)

/-- Two names are bound alike, as far as the mask shows. -/
abbrev Bindings (change : Relabelling) : Option Binding → Option Binding → Prop :=
  Option.Rel (Masked Binding.relabel change)

theorem masked_methodBinding {owner ownerOther : String} {method methodOther : FunctionRecord}
    (owners : change.hidden ownerOther = change.hidden owner)
    (methods : method.Alike change methodOther) :
    Masked Binding.relabel change (methodBinding owner method)
      (methodBinding ownerOther methodOther) := by
  simp [Masked, methodBinding, Binding.relabel, owners, methods.name, methods.signature]

section Lookups

variable {place : NamePlace} {scopes others : List Scope}
  (injective : Function.Injective change.name) (models : place.model.Alike change other)

include injective models

theorem findOwnField?_relabel (name : String) :
    Bindings change (findOwnField? place name)
      (findOwnField? (place.relabel change other) (change.name name)) := by
  unfold findOwnField?
  cases named : place.className with
  | none => simp [NamePlace.relabel, named]
  | some owner =>
      simp only [NamePlace.relabel, named, Option.map_some, Option.bind_some]
      refine rel_map (SymbolModel.rel_findField? injective models.classes owner name) ?_
      rintro ⟨owner, entity⟩ ⟨ownerOther, _⟩ ⟨owners, rfl⟩
      simpa [Masked, Binding.relabel] using owners.name

theorem findOwnMethod?_relabel (name : String) :
    Bindings change (findOwnMethod? place name)
      (findOwnMethod? (place.relabel change other) (change.name name)) := by
  unfold findOwnMethod?
  cases named : place.className with
  | none => simp [NamePlace.relabel, named]
  | some owner =>
      simp only [NamePlace.relabel, named, Option.map_some, Option.bind_some]
      refine rel_map (SymbolModel.rel_findMethod? injective models.classes owner name) ?_
      rintro ⟨owner, method⟩ ⟨ownerOther, methodOther⟩ ⟨owners, methods⟩
      exact masked_methodBinding owners.owner methods.toAlike

omit injective in
theorem findFunction?_relabel (name : String) :
    Bindings change (findFunction? place name)
      (findFunction? (place.relabel change other) (change.name name)) := by
  refine rel_map (models.functions name) fun record partner alike => ?_
  simp [Masked, Binding.relabel, alike.name, alike.signature]

omit injective in
theorem findGlobal?_relabel (name : String) :
    Bindings change (findGlobal? place name)
      (findGlobal? (place.relabel change other) (change.name name)) := by
  have globals : (place.relabel change other).model.global? (change.name name) =
      (place.model.global? name).map (Variable.relabel change) := models.globals name
  rw [findGlobal?, findGlobal?, globals]
  cases place.model.global? name with
  | none => exact .none
  | some entity => exact .some (by simp [Masked, Binding.relabel])

theorem findValue?_relabel (scopesAlike : List.Forall₂ (Scope.Alike change) scopes others)
    (name : String) :
    Bindings change (findValue? place scopes name)
      (findValue? (place.relabel change other) others (change.name name)) := by
  have inScope : Bindings change (findScoped? place scopes name)
      (findScoped? (place.relabel change other) others (change.name name)) := by
    unfold findScoped?
    cases inside : place.scope with
    | none => simp [NamePlace.relabel, inside]
    | some scope =>
        simp only [NamePlace.relabel, inside, Option.bind_some,
          Scopes.lookup_relabel injective scopesAlike]
        cases Scopes.lookup scopes scope name with
        | none => exact .none
        | some found =>
            obtain ⟨entity, kind⟩ := found
            refine .some ?_
            cases kind <;> simp [Masked, scopedBinding, Binding.relabel]
  exact rel_or inScope <| rel_or (findOwnField?_relabel injective models name) <|
    rel_or (findOwnMethod?_relabel injective models name) <|
      rel_or (findGlobal?_relabel models name) (findFunction?_relabel models name)

end Lookups

section Names

variable (lawful : change.Lawful)

include lawful

theorem follows_bindName (used : NameUse) {binding bindingOther : Option Binding}
    (bound : Bindings change binding bindingOther) {problem problemOther : Problem}
    (problems : problemOther = problem.relabel change) :
    Follows change (Masked NameUse.relabel change) (bindName used binding problem)
      (bindName (used.relabel change) bindingOther problemOther) := by
  cases bound with
  | none =>
      exact (follows_report rfl problems).returns (lawful.mask_nameUse used)
  | some holds =>
      refine alike_pure ?_
      simpa [Masked, NameUse.relabel] using holds

variable {place : NamePlace} (models : place.model.Alike change other)

include models

theorem follows_bindValue {scopes others : List Scope}
    (scopesAlike : List.Forall₂ (Scope.Alike change) scopes others) (used : NameUse) :
    Follows change (Masked NameUse.relabel change) (bindValue place scopes used)
      (bindValue (place.relabel change other) others (used.relabel change)) :=
  follows_bindName lawful used
    (findValue?_relabel lawful.injective models scopesAlike used.text) rfl

theorem follows_bindCallee (callee : NameUse) :
    Follows change (Masked NameUse.relabel change) (bindCallee place callee)
      (bindCallee (place.relabel change other) (callee.relabel change)) :=
  follows_bindName lawful callee
    (rel_or (findOwnMethod?_relabel lawful.injective models callee.text)
      (findFunction?_relabel models callee.text)) rfl

omit models in
/-- A name that is left as it is. -/
theorem follows_unbound (used : NameUse) :
    Follows change (Masked NameUse.relabel change) (pure used) (pure (used.relabel change)) :=
  alike_pure (lawful.mask_nameUse used)

theorem follows_bindMethod (receiver : Option Ty) (callee : NameUse) :
    Follows change (Masked NameUse.relabel change) (bindMethod place receiver callee)
      (bindMethod (place.relabel change other) (receiver.map (Ty.relabel change))
        (callee.relabel change)) := by
  have isClass (owner : String) :
      (place.relabel change other).model.classes.contains (change.name owner) =
        place.model.classes.contains owner := isSome_eq_of_rel (models.classes owner)
  have isInterface (owner : String) :
      (place.relabel change other).model.interfaces.contains (change.name owner) =
        place.model.interfaces.contains owner := models.interfaces owner
  cases receiver with
  | none => exact follows_unbound lawful callee
  | some ty =>
      cases ty with
      | error => exact follows_unbound lawful callee
      | named owner =>
          simp only [bindMethod, Option.map_some, Ty.relabel, isClass, isInterface]
          split
          · refine follows_bindName lawful callee (rel_map (SymbolModel.rel_findMethod?
              lawful.injective models.classes owner callee.text) ?_) rfl
            rintro ⟨declaring, method⟩ ⟨declaringOther, methodOther⟩ ⟨owners, methods⟩
            exact masked_methodBinding owners.owner methods.toAlike
          split
          · refine follows_bindName lawful callee
              (rel_map (models.interfaceMethods owner callee.text) ?_) rfl
            rintro ⟨declaring, method⟩ ⟨declaringOther, methodOther⟩ ⟨owners, methods⟩
            exact masked_methodBinding owners methods
          · exact follows_unbound lawful callee
      | _ => exact follows_bindName lawful callee .none rfl

theorem follows_bindField (receiver : Option Ty) (used : NameUse) :
    Follows change (Masked NameUse.relabel change) (bindField place receiver used)
      (bindField (place.relabel change other) (receiver.map (Ty.relabel change))
        (used.relabel change)) := by
  have isClass (owner : String) :
      (place.relabel change other).model.classes.contains (change.name owner) =
        place.model.classes.contains owner := isSome_eq_of_rel (models.classes owner)
  have isInterface (owner : String) :
      (place.relabel change other).model.interfaces.contains (change.name owner) =
        place.model.interfaces.contains owner := models.interfaces owner
  cases receiver with
  | none => exact follows_unbound lawful used
  | some ty =>
      cases ty with
      | error => exact follows_unbound lawful used
      | named owner =>
          simp only [bindField, Option.map_some, Ty.relabel, isClass, isInterface]
          split
          · refine follows_bindName lawful used (rel_map (SymbolModel.rel_findField?
              lawful.injective models.classes owner used.text) ?_) rfl
            rintro ⟨declaring, entity⟩ ⟨declaringOther, _⟩ ⟨owners, rfl⟩
            simpa [Masked, Binding.relabel] using owners.name
          split
          · exact follows_bindName lawful used .none rfl
          · exact follows_unbound lawful used
      | _ => exact follows_bindName lawful used .none rfl

theorem follows_bindInstance (className : NameUse) :
    Follows change (Masked NameUse.relabel change) (bindInstance place className)
      (bindInstance (place.relabel change other) (className.relabel change)) := by
  have isClass : (place.relabel change other).model.classes.contains (change.name className.text) =
      place.model.classes.contains className.text :=
    isSome_eq_of_rel (models.classes className.text)
  have isInterface :
      (place.relabel change other).model.interfaces.contains (change.name className.text) =
        place.model.interfaces.contains className.text := models.interfaces className.text
  unfold bindInstance
  simp only [show (className.relabel change).text = change.name className.text from rfl, isClass,
    isInterface]
  split
  · exact alike_pure (by simp [Masked, NameUse.relabel, Binding.relabel])
  · refine follows_bindName lawful className .none ?_
    split <;> rfl

theorem follows_bindParent (parent : NameUse) :
    Follows change (Masked NameUse.relabel change) (bindParent place parent)
      (bindParent (place.relabel change other) (parent.relabel change)) :=
  follows_bindName lawful parent
    (rel_map (models.classes parent.text) fun _ _ _ => by
      simp [Masked, Binding.relabel, NameUse.relabel]) rfl

theorem follows_bindInterface (base : NameUse) :
    Follows change (Masked NameUse.relabel change) (bindInterface place base)
      (bindInterface (place.relabel change other) (base.relabel change)) := by
  have both : Option.Rel (fun _ _ => True) (place.model.interface? base.text)
      ((place.relabel change other).model.interface? (change.name base.text)) :=
    rel_of_isSome_eq (models.interfaces base.text)
  exact follows_bindName lawful base
    (rel_map both fun _ _ _ => by simp [Masked, Binding.relabel, NameUse.relabel]) rfl

omit lawful in
theorem follows_checkTy (ty : Ty) (position : Position) :
    Follows change (fun _ _ => True) (checkTy place ty position)
      (checkTy (place.relabel change other) (ty.relabel change) (change.start position)) := by
  cases ty with
  | named name =>
      have known : (place.relabel change other).model.isTypeName (change.name name) =
          place.model.isTypeName name := by
        rw [SymbolModel.isTypeName, SymbolModel.isTypeName, ← models.interfaces name]
        congr 1
        exact isSome_eq_of_rel (models.classes name)
      exact follows_reportIf (by rw [known]) rfl rfl
  | _ => exact alike_pure trivial

end Names

/-! ## Expressions -/

mutual

theorem follows_resolveExpr (lawful : change.Lawful) {place : NamePlace}
    (models : place.model.Alike change other) {scopes others : List Scope}
    (scopesAlike : List.Forall₂ (Scope.Alike change) scopes others) : ∀ (expr : Expr),
    Follows change (Masked Expr.relabel change) (resolveExpr place scopes expr)
      (resolveExpr (place.relabel change other) others (expr.relabel change))
  | .int .. | .string .. | .bool .. => alike_pure (by simp [Masked, Expr.relabel])
  | .name info used => by
      refine (follows_bindValue lawful models scopesAlike used).bind fun used partner masked => ?_
      exact alike_pure (by simp [Masked, Expr.relabel, masked])
  | .binary info op left right => by
      refine (follows_resolveExpr lawful models scopesAlike left).bind fun left leftOther lefts => ?_
      refine (follows_resolveExpr lawful models scopesAlike right).bind
        fun right rightOther rights => ?_
      exact alike_pure (by simp [Masked, Expr.relabel, lefts, rights])
  | .call info callee args => by
      refine (follows_resolveExprs lawful models scopesAlike args).bind fun args argsOther all => ?_
      refine (follows_bindCallee lawful models callee).bind fun callee calleeOther masked => ?_
      exact alike_pure (by simp [Masked, Expr.relabel, all, masked])
  | .methodCall info receiver callee args => by
      refine (follows_resolveExpr lawful models scopesAlike receiver).bind
        fun receiver receiverOther receivers => ?_
      refine (follows_resolveExprs lawful models scopesAlike args).bind fun args argsOther all => ?_
      rw [Expr.staticTy?_of_masked receivers]
      refine (follows_bindMethod lawful models receiver.staticTy? callee).bind
        fun callee calleeOther masked => ?_
      exact alike_pure (by simp [Masked, Expr.relabel, receivers, all, masked])
  | .field info receiver used => by
      refine (follows_resolveExpr lawful models scopesAlike receiver).bind
        fun receiver receiverOther receivers => ?_
      rw [Expr.staticTy?_of_masked receivers]
      refine (follows_bindField lawful models receiver.staticTy? used).bind
        fun used partner masked => ?_
      exact alike_pure (by simp [Masked, Expr.relabel, receivers, masked])
  | .newInstance info className => by
      refine (follows_bindInstance lawful models className).bind fun used partner masked => ?_
      exact alike_pure (by simp [Masked, Expr.relabel, masked])
  | .newArray info element length => by
      refine (follows_resolveExpr lawful models scopesAlike length).bind
        fun length lengthOther lengths => ?_
      exact alike_pure (by simp [Masked, Expr.relabel, lengths])
  | .index info base position => by
      refine (follows_resolveExpr lawful models scopesAlike base).bind fun base baseOther bases => ?_
      refine (follows_resolveExpr lawful models scopesAlike position).bind
        fun position positionOther positions => ?_
      exact alike_pure (by simp [Masked, Expr.relabel, bases, positions])
  | .array info items => by
      refine (follows_resolveExprs lawful models scopesAlike items).bind
        fun items itemsOther all => ?_
      exact alike_pure (by simp [Masked, Expr.relabel, all])

theorem follows_resolveExprs (lawful : change.Lawful) {place : NamePlace}
    (models : place.model.Alike change other) {scopes others : List Scope}
    (scopesAlike : List.Forall₂ (Scope.Alike change) scopes others) : ∀ (exprs : List Expr),
    Follows change (Masked Expr.relabelList change) (resolveExprs place scopes exprs)
      (resolveExprs (place.relabel change other) others (Expr.relabelList change exprs))
  | [] => alike_pure rfl
  | first :: rest => by
      refine (follows_resolveExpr lawful models scopesAlike first).bind
        fun first firstOther firsts => ?_
      refine (follows_resolveExprs lawful models scopesAlike rest).bind
        fun rest restOther rests => ?_
      exact alike_pure (by simp [Masked, Expr.relabelList, firsts, rests])

end

/-- Optional trees that are the same behind a mask. -/
abbrev MaskedOption {α : Type} (relabel : Relabelling → α → α) (change : Relabelling) :
    Option α → Option α → Prop :=
  fun found other => other.map (relabel change.mask) = found.map (relabel change)

/-- A tree and the scopes behind it, the same behind a mask as others. -/
abbrev MaskedIn {α : Type} (relabel : Relabelling → α → α) (change : Relabelling) :
    α × ScopeState → α × ScopeState → Prop :=
  fun found other => Masked relabel change found.1 other.1 ∧ found.2.Alike change other.2

/-- Passes that follow each other go on with trees and scopes that are alike. -/
theorem follows_bind_in {α γ δ : Type} {relabel : Relabelling → α → α} {result : γ → δ → Prop}
    {first second : Reported (α × ScopeState)} {next : α × ScopeState → Reported γ}
    {nextOther : α × ScopeState → Reported δ}
    (before : Follows change (MaskedIn relabel change) first second)
    (rest : ∀ value other state stateOther, Masked relabel change value other →
      ScopeState.Alike change state stateOther →
      Follows change result (next (value, state)) (nextOther (other, stateOther))) :
    Follows change result (first >>= next) (second >>= nextOther) :=
  before.bind fun _ _ both => rest _ _ _ _ both.1 both.2

section Parts

variable (lawful : change.Lawful) {place : NamePlace} (models : place.model.Alike change other)

include lawful models

section

variable {scopes others : List Scope}
  (scopesAlike : List.Forall₂ (Scope.Alike change) scopes others)

include scopesAlike

theorem follows_resolveOptional : ∀ (expr : Option Expr),
    Follows change (MaskedOption Expr.relabel change) (resolveOptional place scopes expr)
      (resolveOptional (place.relabel change other) others (expr.map (Expr.relabel change)))
  | none => alike_pure rfl
  | some expr => (follows_resolveExpr lawful models scopesAlike expr).bind fun _ _ masked =>
      alike_pure (congrArg some masked)

theorem follows_resolveDecl (decl : VarDecl) :
    Follows change (Masked VarDecl.relabel change) (resolveDecl place scopes decl)
      (resolveDecl (place.relabel change other) others (decl.relabel change)) := by
  refine (follows_checkTy models decl.ty decl.tySpan.start).andThen ?_
  refine (follows_resolveOptional lawful models scopesAlike decl.init).bind
    fun init initOther inits => ?_
  exact alike_pure (by simp [Masked, VarDecl.relabel, inits])

theorem follows_resolveAssignment (assignment : Assignment) :
    Follows change (Masked Assignment.relabel change) (resolveAssignment place scopes assignment)
      (resolveAssignment (place.relabel change other) others (assignment.relabel change)) := by
  refine (follows_bindValue lawful models scopesAlike assignment.target).bind
    fun target targetOther targets => ?_
  refine (follows_resolveOptional lawful models scopesAlike assignment.index).bind
    fun index indexOther indices => ?_
  refine (follows_resolveExpr lawful models scopesAlike assignment.value).bind
    fun value valueOther values => ?_
  exact alike_pure (by simp [Masked, Assignment.relabel, targets, indices, values])

theorem follows_resolveReturn (returned : Return) :
    Follows change (Masked Return.relabel change) (resolveReturn place scopes returned)
      (resolveReturn (place.relabel change other) others (returned.relabel change)) := by
  refine (follows_resolveOptional lawful models scopesAlike returned.value).bind
    fun value valueOther values => ?_
  exact alike_pure (by simp [Masked, Return.relabel, values])

end

omit lawful models in
theorem alike_openScope {state stateOther : ScopeState} (states : state.Alike change stateOther)
    (parent : Option ScopeId) (kind : ScopeKind) :
    (stateOther.openScope parent kind).1 = (state.openScope parent kind).1 ∧
      (state.openScope parent kind).2.Alike change (stateOther.openScope parent kind).2 :=
  ⟨states.scopes.length_eq.symm,
    List.rel_append states.scopes (.cons ⟨rfl, rfl, rfl⟩ .nil), states.nextSlot⟩

omit models in
theorem alike_declareLocal {state stateOther : ScopeState} (states : state.Alike change stateOther)
    {decl declOther : VarDecl} (decls : Masked VarDecl.relabel change decl declOther) :
    (declareLocal place state decl).Alike change
      (declareLocal (place.relabel change other) stateOther declOther) := by
  have name : declOther.name = change.name decl.name := congrArg VarDecl.name decls
  have ty : declOther.ty = decl.ty.relabel change := by
    simpa [VarDecl.relabel] using congrArg VarDecl.ty decls
  have start : declOther.nameSpan.start = change.start decl.nameSpan.start :=
    congrArg (fun decl => decl.nameSpan.start) decls
  have declares (scope : ScopeId) : Scopes.declares stateOther.scopes scope declOther.name =
      Scopes.declares state.scopes scope decl.name := by
    rw [name, Scopes.declares_relabel lawful.injective states.scopes]
  have repeats (scope : ScopeId) :
      repeatsParam (place.relabel change other) stateOther.scopes scope declOther.name =
        repeatsParam place state.scopes scope decl.name := by
    cases inside : place.functionScopes <;>
      simp [repeatsParam, NamePlace.relabel, inside, declares]
  cases inside : place.scope with
  | none => simpa [declareLocal, NamePlace.relabel, inside] using states
  | some scope =>
      simp only [declareLocal, NamePlace.relabel, inside] at repeats ⊢
      rw [repeats, declares]
      split
      · exact states
      · refine ⟨?_, congrArg (· + 1) states.nextSlot⟩
        have entity : (⟨declOther.name, declOther.ty, some stateOther.nextSlot,
            declOther.nameSpan.start⟩ : Variable) =
            Variable.relabel change ⟨decl.name, decl.ty, some state.nextSlot, decl.nameSpan.start⟩ := by
          simp [Variable.relabel, name, ty, start, states.nextSlot]
        rw [entity]
        exact Scopes.alike_declare lawful.injective states.scopes scope _

theorem follows_resolveLocal {state stateOther : ScopeState}
    (states : state.Alike change stateOther) (decl : VarDecl) :
    Follows change (MaskedIn VarDecl.relabel change) (resolveLocal place state decl)
      (resolveLocal (place.relabel change other) stateOther (decl.relabel change)) :=
  (follows_resolveDecl lawful models states.scopes decl).bind fun _ _ decls =>
    alike_pure ⟨decls, alike_declareLocal lawful states decls⟩

end Parts

mutual

theorem follows_resolveStmt (lawful : change.Lawful) {place : NamePlace}
    (models : place.model.Alike change other) {state stateOther : ScopeState}
    (states : state.Alike change stateOther) : ∀ (stmt : Stmt),
    Follows change (MaskedIn Stmt.relabel change) (resolveStmt place state stmt)
      (resolveStmt (place.relabel change other) stateOther (stmt.relabel change))
  | .varDecl info decl => by
      refine follows_bind_in (follows_resolveLocal lawful models states decl)
        fun decl declOther state stateOther decls states => ?_
      exact alike_pure ⟨by simp [Masked, Stmt.relabel, decls], states⟩
  | .assign assignment => by
      refine (follows_resolveAssignment lawful models states.scopes assignment).bind
        fun found partner masked => ?_
      exact alike_pure ⟨by simp [Masked, Stmt.relabel, masked], states⟩
  | .fieldAssign info receiver used value => by
      refine (follows_resolveExpr lawful models states.scopes receiver).bind
        fun receiver receiverOther receivers => ?_
      rw [Expr.staticTy?_of_masked receivers]
      refine (follows_bindField lawful models receiver.staticTy? used).bind
        fun used usedOther masked => ?_
      refine (follows_resolveExpr lawful models states.scopes value).bind
        fun value valueOther values => ?_
      exact alike_pure ⟨by simp [Masked, Stmt.relabel, receivers, masked, values], states⟩
  | .call info expr => by
      refine (follows_resolveExpr lawful models states.scopes expr).bind
        fun expr partner masked => ?_
      exact alike_pure ⟨by simp [Masked, Stmt.relabel, masked], states⟩
  | .ifThen info condition body => by
      refine (follows_resolveExpr lawful models states.scopes condition).bind
        fun condition conditionOther conditions => ?_
      refine follows_bind_in (follows_resolveStmt lawful models states body)
        fun body bodyOther state stateOther bodies states => ?_
      exact alike_pure ⟨by simp [Masked, Stmt.relabel, conditions, bodies], states⟩
  | .ifElse info condition body alternative => by
      refine (follows_resolveExpr lawful models states.scopes condition).bind
        fun condition conditionOther conditions => ?_
      refine follows_bind_in (follows_resolveStmt lawful models states body)
        fun body bodyOther state stateOther bodies states => ?_
      refine follows_bind_in (follows_resolveStmt lawful models states alternative)
        fun alternative alternativeOther state stateOther alternatives states => ?_
      exact alike_pure ⟨by simp [Masked, Stmt.relabel, conditions, bodies, alternatives], states⟩
  | .whileLoop info condition body => by
      refine (follows_resolveExpr lawful models states.scopes condition).bind
        fun condition conditionOther conditions => ?_
      refine follows_bind_in (follows_resolveStmt lawful models states body)
        fun body bodyOther state stateOther bodies states => ?_
      exact alike_pure ⟨by simp [Masked, Stmt.relabel, conditions, bodies], states⟩
  | .forLoop info init condition update body _ => by
      obtain ⟨same, opened⟩ := alike_openScope states place.scope .block
      simp only [resolveStmt, Stmt.relabel, NamePlace.relabel, same] at opened ⊢
      have models : NamePlace.model { place with scope := some state.scopes.length } |>.Alike
        change other := models
      refine follows_bind_in (follows_resolveLocal lawful models opened init)
        fun init initOther state stateOther inits states => ?_
      refine (follows_resolveExpr lawful models states.scopes condition).bind
        fun condition conditionOther conditions => ?_
      refine (follows_resolveAssignment lawful models states.scopes update).bind
        fun update updateOther updates => ?_
      refine follows_bind_in (follows_resolveStmt lawful models states body)
        fun body bodyOther state stateOther bodies states => ?_
      exact alike_pure ⟨by simp [Masked, Stmt.relabel, inits, conditions, updates, bodies], states⟩
  | .ret info returned => by
      refine (follows_resolveReturn lawful models states.scopes returned).bind
        fun returned partner masked => ?_
      exact alike_pure ⟨by simp [Masked, Stmt.relabel, masked], states⟩
  | .block info stmts _ => by
      obtain ⟨same, opened⟩ := alike_openScope states place.scope .block
      simp only [resolveStmt, Stmt.relabel, NamePlace.relabel, same] at opened ⊢
      have models : NamePlace.model { place with scope := some state.scopes.length } |>.Alike
        change other := models
      refine follows_bind_in (follows_resolveStmts lawful models opened stmts)
        fun stmts stmtsOther state stateOther all states => ?_
      exact alike_pure ⟨by simp [Masked, Stmt.relabel, all], states⟩

theorem follows_resolveStmts (lawful : change.Lawful) {place : NamePlace}
    (models : place.model.Alike change other) {state stateOther : ScopeState}
    (states : state.Alike change stateOther) : ∀ (stmts : List Stmt),
    Follows change (MaskedIn Stmt.relabelList change) (resolveStmts place state stmts)
      (resolveStmts (place.relabel change other) stateOther (Stmt.relabelList change stmts))
  | [] => alike_pure ⟨rfl, states⟩
  | first :: rest => by
      refine follows_bind_in (follows_resolveStmt lawful models states first)
        fun first firstOther state stateOther firsts states => ?_
      refine follows_bind_in (follows_resolveStmts lawful models states rest)
        fun rest restOther state stateOther rests states => ?_
      exact alike_pure ⟨by simp [Masked, Stmt.relabelList, firsts, rests], states⟩

end

/-! ## Declarations -/

/-- A tree and all scopes behind it, the same behind a mask as others. -/
abbrev MaskedWith {α : Type} (relabel : Relabelling → α → α) (change : Relabelling) :
    α × List Scope → α × List Scope → Prop :=
  fun found other => Masked relabel change found.1 other.1 ∧
    List.Forall₂ (Scope.Alike change) found.2 other.2

/-- Passes that follow each other go on with trees and scopes that are alike. -/
theorem follows_bind_with {α γ δ : Type} {relabel : Relabelling → α → α} {result : γ → δ → Prop}
    {first second : Reported (α × List Scope)} {next : α × List Scope → Reported γ}
    {nextOther : α × List Scope → Reported δ}
    (before : Follows change (MaskedWith relabel change) first second)
    (rest : ∀ value other scopes others, Masked relabel change value other →
      List.Forall₂ (Scope.Alike change) scopes others →
      Follows change result (next (value, scopes)) (nextOther (other, others))) :
    Follows change result (first >>= next) (second >>= nextOther) :=
  before.bind fun _ _ both => rest _ _ _ _ both.1 both.2

/-- A pass over a relabelled list follows the pass over the list, behind a
mask. -/
theorem follows_mapM {α : Type} {relabel : Relabelling → α → α} {pass passOther : α → Reported α}
    (each : ∀ value, Follows change (Masked relabel change) (pass value)
      (passOther (relabel change value))) (list : List α) :
    Follows change
      (fun found other => other.map (relabel change.mask) = found.map (relabel change))
      (list.mapM pass) ((list.map (relabel change)).mapM passOther) := by
  induction list with
  | nil => exact alike_pure rfl
  | cons first rest inductionHypothesis =>
      rw [List.map_cons, List.mapM_cons, List.mapM_cons]
      refine (each first).bind fun value other masked => ?_
      refine inductionHypothesis.bind fun values others all => ?_
      exact alike_pure (by rw [List.map_cons, List.map_cons, masked, all])

theorem follows_option_mapM {α : Type} {relabel : Relabelling → α → α}
    {pass passOther : α → Reported α}
    (each : ∀ value, Follows change (Masked relabel change) (pass value)
      (passOther (relabel change value))) : ∀ (option : Option α),
    Follows change (MaskedOption relabel change) (option.mapM pass)
      ((option.map (relabel change)).mapM passOther)
  | none => alike_pure rfl
  | some value => (each value).bind fun _ _ masked => alike_pure (congrArg some masked)

/-- Declaring relabelled parameters fills the scopes alike. -/
theorem alike_declareParams (injective : Function.Injective change.name)
    {scopes others : List Scope} (scopesAlike : List.Forall₂ (Scope.Alike change) scopes others)
    (scope : ScopeId) (params : List Param) :
    List.Forall₂ (Scope.Alike change) (declareParams scopes scope params)
      (declareParams others scope (params.map (Param.relabel change))) := by
  have entities : ((params.map (Param.relabel change)).mapIdx fun slot param =>
      (⟨param.name, param.ty, some slot, param.span.start⟩ : Variable)) =
      (params.mapIdx fun slot param =>
        (⟨param.name, param.ty, some slot, param.span.start⟩ : Variable)).map
        (Variable.relabel change) := by
    refine List.ext_getElem? fun index => ?_
    cases found : params[index]? <;> simp [found, Variable.relabel, Param.relabel, Span.relabel]
  rw [declareParams, declareParams, entities]
  generalize params.mapIdx _ = declared
  induction declared generalizing scopes others with
  | nil => exact scopesAlike
  | cons first rest inductionHypothesis =>
      exact inductionHypothesis (Scopes.alike_declare injective scopesAlike scope first)

/-- Entering a relabelled function opens the same scopes. -/
theorem alike_enterFunction (injective : Function.Injective change.name)
    {scopes others : List Scope} (scopesAlike : List.Forall₂ (Scope.Alike change) scopes others)
    (params : List Param) :
    (enterFunction others (params.map (Param.relabel change))).paramScope =
        (enterFunction scopes params).paramScope ∧
      (enterFunction others (params.map (Param.relabel change))).bodyScope =
        (enterFunction scopes params).bodyScope ∧
      (enterFunction scopes params).state.Alike change
        (enterFunction others (params.map (Param.relabel change))).state := by
  have opened : (⟨scopes, params.length⟩ : ScopeState).Alike change
      ⟨others, (params.map (Param.relabel change)).length⟩ := ⟨scopesAlike, by simp⟩
  obtain ⟨sameParams, withParams⟩ := alike_openScope opened none .parameters
  have declared := alike_declareParams injective withParams.scopes scopes.length params
  have entered : (⟨_, params.length⟩ : ScopeState).Alike change
      ⟨_, (params.map (Param.relabel change)).length⟩ := ⟨declared, by simp⟩
  obtain ⟨sameBody, inside⟩ := alike_openScope entered (some scopes.length) .block
  have same : others.length = scopes.length := sameParams
  simp only [enterFunction, ScopeState.openScope, same] at sameBody inside ⊢
  exact ⟨trivial, sameBody, inside⟩

section Declarations

variable (lawful : change.Lawful) {place : NamePlace} (models : place.model.Alike change other)

include models

theorem follows_checkHead (head : FunctionHead) :
    Follows change (fun _ _ => True) (checkHead place head)
      (checkHead (place.relabel change other) (head.relabel change)) := by
  have params : Follows change (fun _ _ => True)
      (head.params.forM fun param => checkTy place param.ty param.tySpan.start)
      ((head.params.map (Param.relabel change)).forM fun param =>
        checkTy (place.relabel change other) param.ty param.tySpan.start) :=
    Reported.alike_forM_map (fun param => follows_checkTy models param.ty param.tySpan.start) _
  exact params.andThen (follows_checkTy models head.returnTy head.returnTySpan.start)

include lawful

theorem follows_resolveFunction {scopes others : List Scope}
    (scopesAlike : List.Forall₂ (Scope.Alike change) scopes others) (decl : FunctionDecl) :
    Follows change (MaskedWith FunctionDecl.relabel change) (resolveFunction place scopes decl)
      (resolveFunction (place.relabel change other) others (decl.relabel change)) := by
  refine (follows_checkHead models decl.head).andThen ?_
  obtain ⟨sameParams, sameBody, entered⟩ :=
    alike_enterFunction lawful.injective scopesAlike decl.head.params
  let inner := bodyPlace place (enterFunction scopes decl.head.params)
  have inside : bodyPlace (place.relabel change other)
      (enterFunction others (decl.head.params.map (Param.relabel change))) =
      inner.relabel change other := by
    simp [inner, bodyPlace, NamePlace.relabel, sameParams, sameBody]
  have innerModels : inner.model.Alike change other := models
  have body := follows_resolveStmts lawful innerModels entered decl.body
  rw [← inside] at body
  refine follows_bind_in body fun body bodyOther state stateOther bodies states => ?_
  have closing := follows_option_mapM (follows_resolveReturn lawful innerModels states.scopes)
    decl.closing
  rw [← inside] at closing
  refine closing.bind fun closing closingOther closings => ?_
  refine alike_pure ⟨?_, states.scopes⟩
  simpa [Masked, FunctionDecl.relabel, bodies, closings] using ⟨sameParams, sameBody⟩

theorem follows_resolveMethods {scopes others : List Scope}
    (scopesAlike : List.Forall₂ (Scope.Alike change) scopes others) (decls : List FunctionDecl) :
    Follows change
      (MaskedWith (fun change => List.map (FunctionDecl.relabel change)) change)
      (resolveMethods place scopes decls)
      (resolveMethods (place.relabel change other) others
        (decls.map (FunctionDecl.relabel change))) := by
  induction decls generalizing scopes others with
  | nil => exact alike_pure ⟨rfl, scopesAlike⟩
  | cons first rest inductionHypothesis =>
      refine follows_bind_with (follows_resolveFunction lawful models scopesAlike first)
        fun first firstOther scopes others firsts scopesAlike => ?_
      refine follows_bind_with (inductionHypothesis scopesAlike)
        fun rest restOther scopes others rests scopesAlike => ?_
      exact alike_pure ⟨by simp [Masked, firsts, rests], scopesAlike⟩

theorem follows_resolveInterface (decl : InterfaceDecl) :
    Follows change (Masked InterfaceDecl.relabel change) (resolveInterface place decl)
      (resolveInterface (place.relabel change other) (decl.relabel change)) := by
  refine (follows_mapM (follows_bindInterface lawful models) decl.bases).bind
    fun bases basesOther all => ?_
  refine (Reported.alike_forM_map (follows_checkHead models) decl.methods).andThen ?_
  exact alike_pure (by simp [Masked, InterfaceDecl.relabel, all])

end Declarations

section Items

variable (lawful : change.Lawful) (models : model.Alike change other)

include lawful models

theorem follows_resolveClass {scopes others : List Scope}
    (scopesAlike : List.Forall₂ (Scope.Alike change) scopes others) (decl : ClassDecl) :
    Follows change (MaskedWith ClassDecl.relabel change) (resolveClass model scopes decl)
      (resolveClass other others (decl.relabel change)) := by
  have placeModels : NamePlace.model ⟨model, some decl.name, none, none⟩ |>.Alike change other :=
    models
  refine (follows_option_mapM (follows_bindParent lawful placeModels) decl.parent).bind
    fun parent parentOther parents => ?_
  refine (follows_mapM (follows_bindInterface lawful placeModels) decl.uses).bind
    fun uses usesOther all => ?_
  refine (follows_mapM (follows_resolveDecl lawful placeModels scopesAlike) decl.fields).bind
    fun fields fieldsOther allFields => ?_
  refine follows_bind_with (follows_resolveMethods lawful placeModels scopesAlike decl.methods)
    fun methods methodsOther scopes others allMethods scopesAlike => ?_
  exact alike_pure ⟨by simp_all [Masked, ClassDecl.relabel], scopesAlike⟩

theorem follows_resolveItem {scopes others : List Scope}
    (scopesAlike : List.Forall₂ (Scope.Alike change) scopes others) (item : Item) :
    Follows change (MaskedWith Item.relabel change) (resolveItem model scopes item)
      (resolveItem other others (item.relabel change)) := by
  have placeModels : NamePlace.model ⟨model, none, none, none⟩ |>.Alike change other := models
  cases item with
  | inclusion decl =>
      exact alike_pure ⟨by simp [Masked, Item.relabel, IncludeDecl.relabel], scopesAlike⟩
  | enumeration decl =>
      exact alike_pure ⟨by
        simp [Masked, Item.relabel, EnumDecl.relabel, Function.comp_def], scopesAlike⟩
  | interface decl =>
      refine (follows_resolveInterface lawful placeModels decl).bind fun found partner masked => ?_
      exact alike_pure ⟨by simp [Masked, Item.relabel, masked], scopesAlike⟩
  | classDecl decl =>
      refine follows_bind_with (follows_resolveClass lawful models scopesAlike decl)
        fun found partner scopes others masked scopesAlike => ?_
      exact alike_pure ⟨by simp [Masked, Item.relabel, masked], scopesAlike⟩
  | function decl =>
      refine follows_bind_with (follows_resolveFunction lawful placeModels scopesAlike decl)
        fun found partner scopes others masked scopesAlike => ?_
      exact alike_pure ⟨by simp [Masked, Item.relabel, masked], scopesAlike⟩
  | globalVariable decl =>
      refine (follows_resolveDecl lawful placeModels scopesAlike decl).bind
        fun found partner masked => ?_
      exact alike_pure ⟨by simp [Masked, Item.relabel, masked], scopesAlike⟩

theorem follows_resolveItems {scopes others : List Scope}
    (scopesAlike : List.Forall₂ (Scope.Alike change) scopes others) (items : List Item) :
    Follows change (MaskedWith (fun change => List.map (Item.relabel change)) change)
      (resolveItems model scopes items)
      (resolveItems other others (items.map (Item.relabel change))) := by
  induction items generalizing scopes others with
  | nil => exact alike_pure ⟨rfl, scopesAlike⟩
  | cons first rest inductionHypothesis =>
      refine follows_bind_with (follows_resolveItem lawful models scopesAlike first)
        fun first firstOther scopes others firsts scopesAlike => ?_
      refine follows_bind_with (inductionHypothesis scopesAlike)
        fun rest restOther scopes others rests scopesAlike => ?_
      exact alike_pure ⟨by simp [Masked, firsts, rests], scopesAlike⟩

end Items

end Resolution

/-- A file that is the same as another one when that is relabelled and this is
masked, with scopes that correspond. -/
structure Program.Alike (change : Relabelling) (program other : Program) : Prop where
  file : other.file = program.file
  items : other.items.map (Item.relabel change.mask) = program.items.map (Item.relabel change)
  scopes : List.Forall₂ (Scope.Alike change) program.scopes other.scopes

/-- Resolving a relabelled file that has no scopes yet comes to a file that
corresponds. -/
theorem Program.follows_resolve (lawful : change.Lawful) (models : model.Alike change other)
    {program : Program} (fresh : program.scopes = []) :
    Reported.Follows change (Alike change) (program.resolve model)
      ((program.relabel change).resolve other) := by
  have scopesAlike : List.Forall₂ (Scope.Alike change) program.scopes program.scopes := by
    rw [fresh]
    exact .nil
  exact Resolution.follows_bind_with
    (Resolution.follows_resolveItems lawful models scopesAlike program.items)
    fun items itemsOther scopes others all scopesAlike =>
      Reported.alike_pure ⟨rfl, all, scopesAlike⟩

end KnightFront
