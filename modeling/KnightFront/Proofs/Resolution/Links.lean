import KnightFront.Proofs.Resolution.Linked

namespace KnightFront

/-!
# Resolution without errors links

Name resolution that finds no error in a tree, as it was read, leaves a linked
tree.  A name is bound as soon as nothing is reported for it, and what it is
bound to has declared types because the model is closed and the scopes hold
declared types only.  Both come from the check of each written type.
-/

/-- Every variable in the scopes has a property. -/
def Scopes.Each (property : Variable → Prop) (scopes : List Scope) : Prop :=
  ∀ scope ∈ scopes, ∀ entity ∈ scope.entries.entries, property entity

namespace Scopes.Each

variable {property : Variable → Prop} {scopes : List Scope}

/-- What is found in the scopes has the property. -/
theorem lookupWithin (each : Scopes.Each property scopes) {name : String} {entity : Variable}
    {kind : ScopeKind} :
    ∀ (steps : Nat) (identity : ScopeId),
      Scopes.lookupWithin scopes name steps identity = some (entity, kind) →
      property entity ∧ entity.name = name := by
  intro steps
  induction steps with
  | zero => intro identity found; cases found
  | succ steps inductionHypothesis =>
      intro identity found
      rw [Scopes.lookupWithin] at found
      split at found
      next => cases found
      next scope present =>
        split at found
        next nearest foundHere =>
          cases found
          exact ⟨each scope (List.mem_of_getElem? present) _ (Table.mem_of_find? foundHere),
            Table.nameOf_of_find? foundHere⟩
        next =>
          rcases Option.bind_eq_some_iff.mp found with ⟨parent, _, behind⟩
          exact inductionHypothesis parent behind

/-- A new scope is empty. -/
theorem openScope {state : ScopeState} (each : Scopes.Each property state.scopes)
    (parent : Option ScopeId) (kind : ScopeKind) :
    Scopes.Each property (state.openScope parent kind).2.scopes := by
  intro scope member entity present
  rcases List.mem_append.mp member with old | new
  · exact each scope old entity present
  · cases List.mem_singleton.mp new
    cases present

/-- A variable with the property can be declared. -/
theorem declare (each : Scopes.Each property scopes) (identity : ScopeId) {entity : Variable}
    (fits : property entity) : Scopes.Each property (Scopes.declare scopes identity entity) := by
  intro scope member other present
  rcases List.mem_iff_getElem?.mp member with ⟨index, atIndex⟩
  rw [Scopes.declare, List.getElem?_modify] at atIndex
  rcases Option.map_eq_some_iff.mp atIndex with ⟨before, found, changed⟩
  have old : before ∈ scopes := List.mem_of_getElem? found
  split at changed
  next =>
    subst changed
    rcases Declarations.mem_entries_add present with same | kept
    · exact same ▸ fits
    · exact each before old other kept
  next =>
    subst changed
    exact each before old other present

/-- So can several, one after the other. -/
theorem foldl_declare (identity : ScopeId) (entities : List Variable) :
    ∀ {scopes : List Scope}, Scopes.Each property scopes →
      (∀ entity ∈ entities, property entity) →
      Scopes.Each property
        (entities.foldl (fun scopes entity => Scopes.declare scopes identity entity) scopes) := by
  induction entities with
  | nil => exact fun each _ => each
  | cons first rest inductionHypothesis =>
      intro scopes each fits
      rw [List.forall_mem_cons] at fits
      exact inductionHypothesis (each.declare identity fits.1) fits.2

end Scopes.Each

/-- Every variable in the scopes is of a declared type. -/
def Scopes.Declared (known : SymbolModel) (scopes : List Scope) : Prop :=
  ∀ scope ∈ scopes, ∀ entity ∈ scope.entries.entries, entity.ty.Declared known

namespace Scopes

variable {known : SymbolModel} {scopes : List Scope}

/-- Being declared is a property of each variable. -/
theorem declared_iff_each :
    Scopes.Declared known scopes ↔ Scopes.Each (fun entity => entity.ty.Declared known) scopes :=
  Iff.rfl

/-- What is found in declared scopes is of a declared type. -/
theorem Declared.lookupWithin (declared : Scopes.Declared known scopes) {name : String}
    {entity : Variable} {kind : ScopeKind} (steps : Nat) (identity : ScopeId)
    (found : Scopes.lookupWithin scopes name steps identity = some (entity, kind)) :
    entity.ty.Declared known :=
  ((declared_iff_each.mp declared).lookupWithin steps identity found).1

/-- A new scope is empty. -/
theorem Declared.openScope {state : ScopeState} (declared : Scopes.Declared known state.scopes)
    (parent : Option ScopeId) (kind : ScopeKind) :
    Scopes.Declared known (state.openScope parent kind).2.scopes :=
  (declared_iff_each.mp declared).openScope parent kind

/-- A variable of a declared type keeps scopes declared. -/
theorem Declared.declare (declared : Scopes.Declared known scopes) (identity : ScopeId)
    {entity : Variable} (fits : entity.ty.Declared known) :
    Scopes.Declared known (Scopes.declare scopes identity entity) :=
  (declared_iff_each.mp declared).declare identity fits

/-- Variables of declared types keep scopes declared. -/
theorem Declared.foldl_declare (identity : ScopeId) (entities : List Variable)
    {scopes : List Scope} (declared : Scopes.Declared known scopes)
    (fits : ∀ entity ∈ entities, entity.ty.Declared known) :
    Scopes.Declared known
      (entities.foldl (fun scopes entity => Scopes.declare scopes identity entity) scopes) :=
  Each.foldl_declare identity entities (declared_iff_each.mp declared) fits

end Scopes

namespace Resolution

variable {place : NamePlace} {scopes : List Scope} {used : NameUse}

/-- What a model offers to a call without receiver. -/
inductive OffersCallee (model : SymbolModel) : Binding → Prop
  | method {owner : ClassRecord} {record : FunctionRecord} (known : owner ∈ model.classes.entries)
      (member : record ∈ owner.methods.entries) :
      OffersCallee model (methodBinding owner.name record)
  | function {record : FunctionRecord} (known : record ∈ model.functions.entries) :
      OffersCallee model (.function none record.name record.signature)

/-- What a model offers where a value is wanted. -/
inductive OffersValue (model : SymbolModel) : Binding → Prop
  | field {owner : ClassRecord} {entity : Variable} (known : owner ∈ model.classes.entries)
      (member : entity ∈ owner.fields.entries) : OffersValue model (.field owner.name entity)
  | globalVariable {entity : Variable} (known : entity ∈ model.globals.entries) :
      OffersValue model (.globalVariable entity)
  | callee {binding : Binding} (offers : OffersCallee model binding) : OffersValue model binding

section Found

variable {name : String} {binding : Binding}

theorem offersCallee_of_findOwnMethod? (found : findOwnMethod? place name = some binding) :
    OffersCallee place.model binding := by
  rcases Option.map_eq_some_iff.mp found with ⟨⟨owner, record⟩, foundMethod, same⟩
  rcases Option.bind_eq_some_iff.mp foundMethod with ⟨className, _, lookedUp⟩
  have present := SymbolModel.exists_of_findMethod? lookedUp
  exact same ▸ .method present.1 present.2

theorem offersCallee_of_findFunction? (found : findFunction? place name = some binding) :
    OffersCallee place.model binding := by
  rcases Option.map_eq_some_iff.mp found with ⟨record, lookedUp, same⟩
  exact same ▸ .function (Table.mem_of_find? lookedUp)

theorem offersCallee_of_findCallee? (found : findCallee? place name = some binding) :
    OffersCallee place.model binding := by
  rw [findCallee?, Option.or_eq_some_iff] at found
  rcases found with method | ⟨_, function⟩
  · exact offersCallee_of_findOwnMethod? method
  · exact offersCallee_of_findFunction? function

theorem offersValue_of_findOwnField? (found : findOwnField? place name = some binding) :
    OffersValue place.model binding := by
  rcases Option.map_eq_some_iff.mp found with ⟨⟨owner, entity⟩, foundField, same⟩
  rcases Option.bind_eq_some_iff.mp foundField with ⟨className, _, lookedUp⟩
  have present := SymbolModel.exists_of_findField? lookedUp
  exact same ▸ .field present.1 present.2

theorem offersValue_of_findGlobal? (found : findGlobal? place name = some binding) :
    OffersValue place.model binding := by
  rcases Option.map_eq_some_iff.mp found with ⟨entity, lookedUp, same⟩
  exact same ▸ .globalVariable (Table.mem_of_find? lookedUp)

/-- A value is found in the scopes, or the model offers it. -/
theorem scoped_or_offersValue_of_findValue? (found : findValue? place scopes name = some binding) :
    (∃ scope entity kind, Scopes.lookup scopes scope name = some (entity, kind) ∧
      scopedBinding (entity, kind) = binding) ∨ OffersValue place.model binding := by
  simp only [findValue?, Option.or_eq_some_iff] at found
  rcases found with inScope | ⟨_, field | ⟨_, method | ⟨_, global | ⟨_, function⟩⟩⟩⟩
  · rcases Option.map_eq_some_iff.mp inScope with ⟨⟨entity, kind⟩, foundScoped, same⟩
    rcases Option.bind_eq_some_iff.mp foundScoped with ⟨scope, _, lookedUp⟩
    exact .inl ⟨scope, entity, kind, lookedUp, same⟩
  · exact .inr (offersValue_of_findOwnField? field)
  · exact .inr (.callee (offersCallee_of_findOwnMethod? method))
  · exact .inr (offersValue_of_findGlobal? global)
  · exact .inr (.callee (offersCallee_of_findFunction? function))

/-- What a call without receiver refers to is a function of declared types. -/
theorem declared_of_offersCallee {model : SymbolModel} (closed : model.Closed)
    (offers : OffersCallee model binding) :
    ∃ signature, binding.signature? = some signature ∧ signature.Declared model := by
  cases offers with
  | method known member => exact ⟨_, rfl, closed.methods _ known _ member⟩
  | function known => exact ⟨_, rfl, closed.functions _ known⟩

theorem declared_of_offersValue {model : SymbolModel} (closed : model.Closed)
    (offers : OffersValue model binding) : binding.Declared model := by
  cases offers with
  | field known member => exact closed.fields _ known _ member
  | globalVariable known => exact closed.globals _ known
  | callee offers =>
      cases offers with
      | method known member => exact closed.methods _ known _ member
      | function known => exact closed.functions _ known

/-- What a name refers to where a value is wanted has declared types. -/
theorem declared_findValue? (closed : place.model.Closed)
    (declared : Scopes.Declared place.model scopes)
    (found : findValue? place scopes name = some binding) : binding.Declared place.model := by
  rcases scoped_or_offersValue_of_findValue? found with ⟨scope, entity, kind, lookedUp, rfl⟩ | offers
  · have fits := declared.lookupWithin _ _ lookedUp
    cases kind <;> exact fits
  · exact declared_of_offersValue closed offers

end Found

/-- A name for which nothing is reported is bound to what was found. -/
theorem binding_of_lacks_bindName {binding : Option Binding} {problem : Problem}
    (clean : (bindName used binding problem).Lacks Problem.isError)
    (grave : problem.isError = true) :
    ∃ found, binding = some found ∧
      (bindName used binding problem).value.binding = some found := by
  cases binding with
  | some found => exact ⟨found, rfl, rfl⟩
  | none =>
      rw [bindName, Reported.lacks_bind, Reported.lacks_report, grave] at clean
      cases clean.1

/-- A name for which nothing is reported is bound to what was looked up. -/
theorem exists_of_lacks_bindName {α : Type} {lookedUp : Option α} {toBinding : α → Binding}
    {problem : Problem}
    (clean : (bindName used (lookedUp.map toBinding) problem).Lacks Problem.isError)
    (grave : problem.isError = true) :
    ∃ found, lookedUp = some found ∧
      (bindName used (lookedUp.map toBinding) problem).value.binding = some (toBinding found) := by
  rcases binding_of_lacks_bindName clean grave with ⟨binding, mapped, bound⟩
  rcases Option.map_eq_some_iff.mp mapped with ⟨found, present, same⟩
  exact ⟨found, present, same ▸ bound⟩

theorem bound_bindValue (closed : place.model.Closed)
    (declared : Scopes.Declared place.model scopes)
    (clean : (bindValue place scopes used).Lacks Problem.isError) :
    (bindValue place scopes used).value.Bound place.model := by
  rcases binding_of_lacks_bindName clean rfl with ⟨binding, found, bound⟩
  exact ⟨binding, bound, declared_findValue? closed declared found⟩

theorem callable_bindCallee (closed : place.model.Closed)
    (clean : (bindCallee place used).Lacks Problem.isError) :
    (bindCallee place used).value.Callable place.model := by
  rcases binding_of_lacks_bindName clean rfl with ⟨binding, found, bound⟩
  rcases declared_of_offersCallee closed (offersCallee_of_findCallee? found) with
    ⟨signature, isFunction, fits⟩
  refine ⟨signature, ?_, fits⟩
  rw [bindCallee, bound]
  exact isFunction

/-- Behind a receiver, a name is linked as its type asks if it is so behind a
receiver of a class or interface and an error is reported behind a value. -/
theorem memberOf_of_named {isLinked : NameUse → Prop} {receiver : Option Ty} {bound : NameUse}
    (known : ∀ ty, receiver = some ty → ty.Declared place.model ∨ ty = .function)
    (unbound : receiver = none → bound.binding = none)
    (isNamed : ∀ ty, receiver = some ty → ty ≠ .error → ∃ owner, ty = .named owner)
    (linked : ∀ owner, receiver = some (.named owner) →
      place.model.isTypeName owner = true → isLinked bound) :
    bound.MemberOf receiver isLinked := by
  refine ⟨unbound, fun ty isTy => ?_⟩
  by_cases isError : ty = .error
  · subst isError
    rcases known _ isTy with impossible | impossible <;> cases impossible
  · rcases isNamed ty isTy isError with ⟨owner, same⟩
    subst same
    rcases known _ isTy with isTypeName | impossible
    · exact ⟨by simp, linked owner isTy isTypeName⟩
    · cases impossible

/-- The name of a method is linked as the type of its receiver asks, which is
a declared type or that of a function. -/
theorem memberOf_bindMethod (closed : place.model.Closed) {receiver : Option Ty}
    (known : ∀ ty, receiver = some ty → ty.Declared place.model ∨ ty = .function)
    (fresh : used.binding = none)
    (clean : (bindMethod place receiver used).Lacks Problem.isError) :
    (bindMethod place receiver used).value.MemberOf receiver
      (NameUse.Callable place.model) := by
  refine memberOf_of_named known ?_ ?_ ?_
  · rintro rfl
    exact fresh
  · rintro ty rfl noError
    cases ty with
    | named owner => exact ⟨owner, rfl⟩
    | error => cases noError rfl
    | _ =>
        rcases binding_of_lacks_bindName clean rfl with ⟨binding, impossible, _⟩
        cases impossible
  · rintro owner rfl isTypeName
    unfold bindMethod at clean ⊢
    simp only at clean ⊢
    split at clean
    next isClass =>
      rw [if_pos isClass]
      rcases exists_of_lacks_bindName clean rfl with ⟨found, lookedUp, bound⟩
      have present := SymbolModel.exists_of_findMethod? lookedUp
      exact ⟨_, by rw [bound]; rfl, closed.methods _ present.1 _ present.2⟩
    next noClass =>
      rw [if_neg noClass]
      split at clean
      next isInterface =>
        rw [if_pos isInterface]
        rcases exists_of_lacks_bindName clean rfl with ⟨found, lookedUp, bound⟩
        have present := SymbolModel.exists_of_findInterfaceMethod? lookedUp
        exact ⟨_, by rw [bound]; rfl, closed.interfaceMethods _ present.1 _ present.2⟩
      next noInterface =>
        -- Neither table has the type, so it is no declared type.
        simp [SymbolModel.isTypeName, noClass, noInterface] at isTypeName

/-- The name of a field is linked as the type of its receiver asks. -/
theorem memberOf_bindField (closed : place.model.Closed) {receiver : Option Ty}
    (known : ∀ ty, receiver = some ty → ty.Declared place.model ∨ ty = .function)
    (fresh : used.binding = none)
    (clean : (bindField place receiver used).Lacks Problem.isError) :
    (bindField place receiver used).value.MemberOf receiver (NameUse.Valued place.model) := by
  refine memberOf_of_named known ?_ ?_ ?_
  · rintro rfl
    exact fresh
  · rintro ty rfl noError
    cases ty with
    | named owner => exact ⟨owner, rfl⟩
    | error => cases noError rfl
    | _ =>
        rcases binding_of_lacks_bindName clean rfl with ⟨binding, impossible, _⟩
        cases impossible
  · rintro owner rfl isTypeName
    unfold bindField at clean ⊢
    simp only at clean ⊢
    split at clean
    next isClass =>
      rw [if_pos isClass]
      rcases exists_of_lacks_bindName clean rfl with ⟨found, lookedUp, bound⟩
      have present := SymbolModel.exists_of_findField? lookedUp
      exact ⟨_, bound, closed.fields _ present.1 _ present.2⟩
    next noClass =>
      rw [if_neg noClass]
      split at clean
      next =>
        rcases binding_of_lacks_bindName clean rfl with ⟨binding, impossible, _⟩
        cases impossible
      next noInterface =>
        simp [SymbolModel.isTypeName, noClass, noInterface] at isTypeName

theorem valued_bindInstance (clean : (bindInstance place used).Lacks Problem.isError) :
    (bindInstance place used).value.Valued place.model := by
  unfold bindInstance at clean ⊢
  split at clean
  next isClass =>
    rw [if_pos isClass]
    exact ⟨_, rfl, by simp [Binding.ty, Ty.Declared, SymbolModel.isTypeName, isClass]⟩
  next =>
    split at clean
    · rcases binding_of_lacks_bindName clean rfl with ⟨binding, impossible, _⟩
      cases impossible
    · rcases binding_of_lacks_bindName clean rfl with ⟨binding, impossible, _⟩
      cases impossible

theorem bound_bindParent (clean : (bindParent place used).Lacks Problem.isError) :
    (bindParent place used).value.Bound place.model := by
  rcases exists_of_lacks_bindName clean rfl with ⟨record, isClass, bound⟩
  refine ⟨_, bound, ?_⟩
  rw [SymbolModel.class?] at isClass
  simp [Binding.Declared, SymbolModel.isTypeName, Table.contains, isClass]

theorem bound_bindInterface (clean : (bindInterface place used).Lacks Problem.isError) :
    (bindInterface place used).value.Bound place.model := by
  rcases exists_of_lacks_bindName clean rfl with ⟨record, isInterface, bound⟩
  refine ⟨_, bound, ?_⟩
  rw [SymbolModel.interface?] at isInterface
  simp [Binding.Declared, SymbolModel.isTypeName, Table.contains, isInterface]

/-- A written type for which nothing is reported is declared. -/
theorem declared_of_lacks_checkTy {ty : Ty} {position : Position} (written : ty.Written)
    (clean : (checkTy place ty position).Lacks Problem.isError) : ty.Declared place.model := by
  cases ty with
  | named name =>
      rw [checkTy, Reported.lacks_reportIf] at clean
      cases isType : place.model.isTypeName name with
      | true => exact isType
      | false =>
          have impossible := clean (by rw [isType]; rfl)
          cases impossible
  | function => exact written
  | error => exact written
  | _ => exact trivial

end Resolution

end KnightFront
