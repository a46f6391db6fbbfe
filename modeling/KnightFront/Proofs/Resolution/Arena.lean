import KnightFront.Proofs.Resolution.Sites

namespace KnightFront

/-!
# Scopes represent frames

Name resolution keeps scopes in a list and walks along parent indices.  Here
this walk is compared with the frames that the tree gives: a scope represents
frames if it and its ancestors declare, one by one, what the frames list.
Parents come before their children in the list, so the walk ends, and the
search that is bounded by the length of the list misses nothing.

A declaration changes one scope, and opening a scope changes none, so all
scopes in front of a given index keep what they represent.
-/

namespace Scopes

/-- A table holds what a frame declares: of each name the first declaration. -/
def Describes (frame : Frame) (entries : Table Variable) : Prop :=
  ∀ name, (entries.find? name).map Variable.declaration = frame.find? name

/-- A scope and its ancestors declare what the frames list. -/
def Represent (scopes : List Scope) : Option ScopeId → List Frame → Prop
  | none, [] => True
  | some identity, frame :: outer =>
      ∃ scope, scopes[identity]? = some scope ∧ scope.kind = frame.kind ∧
        Describes frame scope.entries ∧ (∀ parent ∈ scope.parent, parent < identity) ∧
          Represent scopes scope.parent outer
  | _, _ => False

variable {scopes : List Scope} {identity : ScopeId} {frame : Frame} {outer : List Frame}

/-- A scope that represents frames is in the list. -/
theorem Represent.lt_length {frames : List Frame}
    (represent : Represent scopes (some identity) frames) : identity < scopes.length := by
  cases frames with
  | nil => cases represent
  | cons frame outer =>
      rcases represent with ⟨scope, present, _⟩
      exact (List.getElem?_eq_some_iff.mp present).1

/-- There are no more frames than scopes up to the one that represents them. -/
theorem Represent.length_le {frames : List Frame} : ∀ {identity : ScopeId},
    Represent scopes (some identity) frames → frames.length ≤ identity + 1 := by
  induction frames with
  | nil => intro identity represent; cases represent
  | cons frame outer inductionHypothesis =>
      intro identity represent
      rcases represent with ⟨scope, _, _, _, below, rest⟩
      cases hasParent : scope.parent with
      | none =>
          rw [hasParent] at rest
          cases outer with
          | nil => exact Nat.succ_le_succ (Nat.zero_le identity)
          | cons => cases rest
      | some parent =>
          rw [hasParent] at rest
          have bound := inductionHypothesis rest
          exact Nat.succ_le_succ (Nat.le_trans bound (below parent hasParent))

/-- The search through enough scopes finds what the frames say. -/
theorem Represent.lookupWithin {frames : List Frame} {name : String} :
    ∀ {identity : ScopeId} {steps : Nat}, Represent scopes (some identity) frames →
      frames.length ≤ steps →
      (Scopes.lookupWithin scopes name steps identity).map
          (fun found => (found.1.declaration, found.2)) = Frames.find? frames name := by
  induction frames with
  | nil => intro identity steps represent; cases represent
  | cons frame outer inductionHypothesis =>
      intro identity steps represent enough
      rcases represent with ⟨scope, present, kind, describes, _, rest⟩
      cases steps with
      | zero => simp at enough
      | succ steps =>
          rw [Scopes.lookupWithin, present, Frames.find?, List.findSome?_cons, ← describes name]
          simp only
          cases scope.entries.find? name with
          | some entity => simp [kind]
          | none =>
              cases hasParent : scope.parent with
              | none =>
                  rw [hasParent] at rest
                  cases outer with
                  | nil => rfl
                  | cons => cases rest
              | some parent =>
                  rw [hasParent] at rest
                  exact inductionHypothesis rest (Nat.le_of_succ_le_succ enough)

/-- Looking a name up finds what the frames say. -/
theorem Represent.lookup {frames : List Frame} {name : String}
    (represent : Represent scopes (some identity) frames) :
    (Scopes.lookup scopes identity name).map (fun found => (found.1.declaration, found.2)) =
      Frames.find? frames name := by
  apply represent.lookupWithin
  exact Nat.le_trans represent.length_le represent.lt_length

/-- Some scopes at the front of a list are the same in another list, which is
no shorter. -/
structure Keeps (count : Nat) (before after : List Scope) : Prop where
  length : before.length ≤ after.length
  same : ∀ index, index < count → after[index]? = before[index]?

theorem Keeps.refl (count : Nat) (scopes : List Scope) : Keeps count scopes scopes :=
  ⟨Nat.le_refl _, fun _ _ => rfl⟩

theorem Keeps.trans {count : Nat} {first second third : List Scope}
    (early : Keeps count first second) (late : Keeps count second third) :
    Keeps count first third :=
  ⟨Nat.le_trans early.length late.length, fun index inside =>
    (late.same index inside).trans (early.same index inside)⟩

/-- Keeping more scopes keeps fewer. -/
theorem Keeps.mono {count fewer : Nat} {before after : List Scope}
    (keeps : Keeps count before after) (le : fewer ≤ count) : Keeps fewer before after :=
  ⟨keeps.length, fun index inside => keeps.same index (Nat.lt_of_lt_of_le inside le)⟩

/-- Scopes in front stay as they are when one is opened behind them. -/
theorem keeps_append (scopes behind : List Scope) :
    Keeps scopes.length scopes (scopes ++ behind) :=
  ⟨by simp, fun _ inside => List.getElem?_append_left inside⟩

/-- A declaration changes no scope in front of its own. -/
theorem keeps_declare (scopes : List Scope) (identity : ScopeId) (entity : Variable) :
    Keeps identity scopes (declare scopes identity entity) := by
  refine ⟨by simp [declare], fun index inside => ?_⟩
  rw [declare, List.getElem?_modify_ne _ _ (Nat.ne_of_gt inside)]

/-- Where the scopes up to one stay as they are, it represents the same
frames. -/
theorem Represent.of_keeps {frames : List Frame} {count : Nat} {before after : List Scope}
    (keeps : Keeps count before after) : ∀ {identity : ScopeId},
    Represent before (some identity) frames → identity < count →
      Represent after (some identity) frames := by
  induction frames with
  | nil => intro identity represent; cases represent
  | cons frame outer inductionHypothesis =>
      intro identity represent inside
      rcases represent with ⟨scope, present, kind, describes, below, rest⟩
      refine ⟨scope, (keeps.same identity inside).trans present, kind, describes, below, ?_⟩
      cases hasParent : scope.parent with
      | none =>
          rw [hasParent] at rest
          cases outer with
          | nil => trivial
          | cons => cases rest
      | some parent =>
          rw [hasParent] at rest
          exact inductionHypothesis rest (Nat.lt_trans (below parent hasParent) inside)

/-- A scope opened below others represents one more frame, which is empty. -/
theorem Represent.open {frames : List Frame} {parent : Option ScopeId}
    (represent : Represent scopes parent frames) (kind : ScopeKind) :
    Represent (scopes ++ [.opened parent kind]) (some scopes.length) (⟨kind, []⟩ :: frames) := by
  refine ⟨.opened parent kind, by simp, rfl, fun name => rfl, ?_, ?_⟩
  · rintro identity isParent
    cases isParent
    exact represent.lt_length
  · cases parent with
    | none =>
        cases frames with
        | nil => trivial
        | cons => cases represent
    | some identity => exact represent.of_keeps (keeps_append scopes _) represent.lt_length

/-- A table with one more entry holds one more declaration.  If its name was
taken, then neither the table nor the frame shows it. -/
theorem Describes.add {entries : Table Variable} (describes : Describes frame entries)
    (entity : Variable) :
    Describes ⟨frame.kind, frame.declared ++ [entity.declaration]⟩ (entries.add entity) := by
  intro name
  have found : Frame.find? ⟨frame.kind, frame.declared ++ [entity.declaration]⟩ name =
      (frame.find? name).or ([entity.declaration].find? fun decl => decl.name == name) :=
    List.find?_append
  rw [Table.find?_add, Option.map_or, describes name, found]
  congr 1
  by_cases same : entity.name = name
  · simp [Named.nameOf, Variable.declaration, same]
  · simp [Named.nameOf, Variable.declaration, same]

/-- A declaration of a name that is taken adds nothing. -/
theorem Describes.repeat {entries : Table Variable} (describes : Describes frame entries)
    {decl : LocalDecl} (taken : entries.contains decl.name = true) :
    Describes ⟨frame.kind, frame.declared ++ [decl]⟩ entries := by
  intro name
  rw [describes name, Frame.find?, Frame.find?, List.find?_append]
  by_cases same : decl.name = name
  · subst same
    have found : (frame.find? decl.name).isSome = true := by
      rw [← describes decl.name, Option.isSome_map]
      exact taken
    rw [Frame.find?] at found
    rw [Option.or_of_isSome found]
  · simp [same]

/-- Declaring in the innermost scope declares in the innermost frame. -/
theorem Represent.declare (represent : Represent scopes (some identity) (frame :: outer))
    (entity : Variable) :
    Represent (Scopes.declare scopes identity entity) (some identity)
      (⟨frame.kind, frame.declared ++ [entity.declaration]⟩ :: outer) := by
  rcases represent with ⟨scope, present, kind, describes, below, rest⟩
  refine ⟨scope.declare entity, ?_, kind, describes.add entity, below, ?_⟩
  · rw [Scopes.declare, List.getElem?_modify_eq, present]
    rfl
  · cases hasParent : scope.parent with
    | none =>
        rw [hasParent] at rest
        rw [Scope.declare, hasParent]
        cases outer with
        | nil => trivial
        | cons => cases rest
    | some parent =>
        rw [hasParent] at rest
        rw [Scope.declare, hasParent]
        exact rest.of_keeps (keeps_declare scopes identity entity) (below parent hasParent)

/-- Declaring one variable after another lists them all. -/
theorem Represent.foldl_declare (entities : List Variable) : ∀ {scopes : List Scope} {frame : Frame},
    Represent scopes (some identity) (frame :: outer) →
    Represent (entities.foldl (fun scopes entity => Scopes.declare scopes identity entity) scopes)
      (some identity)
      (⟨frame.kind, frame.declared ++ entities.map Variable.declaration⟩ :: outer) := by
  induction entities with
  | nil =>
      intro scopes frame represent
      rw [List.map_nil, List.append_nil]
      exact represent
  | cons first rest inductionHypothesis =>
      intro scopes frame represent
      have later := inductionHypothesis (represent.declare first)
      rwa [List.append_assoc] at later

/-- A declaration of a name that the innermost scope declares already changes
nothing. -/
theorem Represent.repeat (represent : Represent scopes (some identity) (frame :: outer))
    {decl : LocalDecl} (taken : declares scopes identity decl.name = true) :
    Represent scopes (some identity) (⟨frame.kind, frame.declared ++ [decl]⟩ :: outer) := by
  rcases represent with ⟨scope, present, kind, describes, below, rest⟩
  rw [declares, present] at taken
  exact ⟨scope, present, kind, describes.repeat taken, below, rest⟩

/-- A scope declares what its frame does. -/
theorem Represent.declares_iff (represent : Represent scopes (some identity) (frame :: outer))
    (name : String) :
    declares scopes identity name = true ↔ ∃ decl ∈ frame.declared, decl.name = name := by
  rcases represent with ⟨scope, present, _, describes, _⟩
  have found : (frame.find? name).isSome = true ↔ ∃ decl ∈ frame.declared, decl.name = name := by
    simp [Frame.find?, List.find?_isSome]
  rw [← found, ← describes name, Option.isSome_map, declares, present]
  exact Iff.rfl

end Scopes

end KnightFront
