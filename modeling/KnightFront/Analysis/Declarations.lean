import KnightFront.Diagnostics.Reported
import KnightFront.Symbols.Hierarchy
import KnightFront.Tree.Program

namespace KnightFront

/-!
# Collecting declarations

The first pass collects what all files declare into one symbol model.  Of
several declarations of a name the first is taken, and each later one is
reported where it stands.  Cycles among classes and interfaces can only be
judged when every file has been read, so they are reported at the end.
-/

namespace Declarations

open Reported (report reportIf)

/-- The record of a parameter at its slot. -/
def paramVariable (slot : Nat) (param : Param) : Variable :=
  ⟨param.name, param.ty, some slot, param.span.start⟩

/-- Report the parameters whose names stand further left already. -/
def reportRepeatedParams (display : String) (seen : List String) : List Param → Reported Unit
  | [] => return ()
  | param :: rest => do
      reportIf (seen.contains param.name) param.span.start (.duplicateParameter param.name display)
      reportRepeatedParams display (param.name :: seen) rest

/-- The signature that a head declares.  A repeated parameter stays in it, so
that calls still match by place. -/
def signature (head : FunctionHead) : Signature where
  parameters := head.params.map fun param => (param.name, param.ty)
  returnTy := head.returnTy

/-- The locals found so far in a function, and the slot of the next one. -/
structure LocalState where
  locals : Table Variable
  nextSlot : Nat

/-- Take up a local of a block in which some names are declared already. -/
def declareLocal (display : String) (declared : List String) (state : LocalState) (decl : VarDecl) :
    Reported (List String × LocalState) :=
  if declared.contains decl.name then do
    report decl.nameSpan.start (.duplicateLocal decl.name display)
    return (declared, state)
  else
    let entity : Variable := ⟨decl.name, decl.ty, some state.nextSlot, decl.nameSpan.start⟩
    return (decl.name :: declared, ⟨state.locals.add entity, state.nextSlot + 1⟩)

mutual

/-- The locals of a statement.  Names count per block, so a declaration below
a condition or in a loop does not meet those around it. -/
def collectLocals (display : String) (declared : List String) (state : LocalState) :
    Stmt → Reported (List String × LocalState)
  | .varDecl _ decl => declareLocal display declared state decl
  | .ifThen _ _ body => do
      let (_, state) ← collectLocals display [] state body
      return (declared, state)
  | .ifElse _ _ body alternative => do
      let (_, state) ← collectLocals display [] state body
      let (_, state) ← collectLocals display [] state alternative
      return (declared, state)
  | .whileLoop _ _ body => do
      let (_, state) ← collectLocals display [] state body
      return (declared, state)
  | .forLoop _ init _ _ body _ => do
      let (_, state) ← declareLocal display [] state init
      let (_, state) ← collectLocals display [] state body
      return (declared, state)
  | .block _ stmts _ => do
      let (_, state) ← collectLocalsOfList display [] state stmts
      return (declared, state)
  | .assign _ | .fieldAssign .. | .call .. | .ret .. => return (declared, state)

/-- The locals of statements one after another in one block. -/
def collectLocalsOfList (display : String) (declared : List String) (state : LocalState) :
    List Stmt → Reported (List String × LocalState)
  | [] => return (declared, state)
  | first :: rest => do
      let (declared, state) ← collectLocals display declared state first
      collectLocalsOfList display declared state rest

end

/-- The record of a function, with its parameters and locals.  The body
belongs to the same block as the parameters.  Messages speak of the function
by its display name. -/
def functionRecord (display : String) (decl : FunctionDecl) : Reported FunctionRecord := do
  reportRepeatedParams display [] decl.head.params
  let params := decl.head.params.mapIdx paramVariable
  let start : LocalState := ⟨params.foldl Table.add .empty, params.length⟩
  let (_, state) ← collectLocalsOfList display (params.map Variable.name) start decl.body
  return {
    name := decl.head.name
    signature := signature decl.head
    locals := state.locals
    position := decl.head.span.start
    builtin := false }

/-- Add an entry to a table, and report a problem if its name is taken. -/
def addEntry {α : Type} [Named α] (table : Table α) (entry : α) (position : Position)
    (problem : Problem) : Reported (Table α) := do
  reportIf (table.contains (Named.nameOf entry)) position problem
  return table.add entry

/-- A variable without a slot, as globals and fields are. -/
def unslotted (decl : VarDecl) : Variable := ⟨decl.name, decl.ty, none, decl.nameSpan.start⟩

/-- The fields of a class. -/
def fieldTable (decl : ClassDecl) : Reported (Table Variable) :=
  decl.fields.foldlM
    (fun table field =>
      addEntry table (unslotted field) field.nameSpan.start (.duplicateField field.name decl.name))
    .empty

/-- The methods of a class.  A method that is not taken up is still looked
through for problems of its own. -/
def methodTable (decl : ClassDecl) : Reported (Table FunctionRecord) :=
  decl.methods.foldlM
    (fun table method => do
      let record ← functionRecord (decl.name ++ "." ++ method.head.name) method
      addEntry table record method.head.span.start (.duplicateMethod method.head.name decl.name))
    .empty

/-- The method table of an interface. -/
def headTable (decl : InterfaceDecl) : Reported (Table FunctionRecord) :=
  decl.methods.foldlM
    (fun table head => do
      reportRepeatedParams head.name [] head.params
      let record : FunctionRecord := ⟨head.name, signature head, .empty, head.span.start, false⟩
      addEntry table record head.span.start (.duplicateInterfaceMethod head.name decl.name))
    .empty

/-- Collect a class.  One whose name is taken is not looked into. -/
def addClass (model : SymbolModel) (decl : ClassDecl) : Reported SymbolModel := do
  if model.classes.contains decl.name then
    report decl.span.start (.duplicateClass decl.name)
    return model
  else
    let fields ← fieldTable decl
    let methods ← methodTable decl
    return model.addClass {
      name := decl.name
      parent := decl.parent.map NameUse.text
      methods
      fields
      uses := .ofList (decl.uses.map NameUse.text)
      position := decl.span.start }

/-- Collect an interface.  One whose name is taken is not looked into. -/
def addInterface (model : SymbolModel) (decl : InterfaceDecl) : Reported SymbolModel := do
  if model.interfaces.contains decl.name then
    report decl.span.start (.duplicateInterface decl.name)
    return model
  else
    let methods ← headTable decl
    return model.addInterface {
      name := decl.name
      methods
      bases := .ofList (decl.bases.map NameUse.text)
      position := decl.span.start }

/-- Collect an enumeration.  Its members are global numbers; its own name
names nothing. -/
def addEnum (model : SymbolModel) (decl : EnumDecl) : Reported SymbolModel :=
  decl.members.foldlM
    (fun model (member, span) => do
      let globals ← addEntry model.globals ⟨member, .int, none, span.start⟩ span.start
        (.duplicateEnumMember member decl.name)
      return { model with globals })
    model

/-- Collect one declaration. -/
def addItem (model : SymbolModel) : Item → Reported SymbolModel
  | .inclusion _ => return model
  | .enumeration decl => addEnum model decl
  | .interface decl => addInterface model decl
  | .classDecl decl => addClass model decl
  | .function decl => do
      let record ← functionRecord decl.head.name decl
      let functions ← addEntry model.functions record decl.head.span.start
        (.duplicateFunction decl.head.name)
      return { model with functions }
  | .globalVariable decl => do
      let globals ← addEntry model.globals (unslotted decl) decl.nameSpan.start
        (.duplicateVariable decl.name)
      return { model with globals }

/-- Collect the declarations of a file. -/
def addProgram (model : SymbolModel) (program : Program) : Reported SymbolModel :=
  program.items.foldlM addItem model

/-- The classes that are their own ancestors and then the interfaces that
extend themselves, each by name. -/
def cycleFindings (model : SymbolModel) : List Finding :=
  let classes := model.classes.sorted.filter fun record => model.hasCyclicInheritance record.name
  let interfaces :=
    model.interfaces.sorted.filter fun record => model.hasCyclicExtension record.name
  classes.map (fun record => ⟨record.position, .cyclicInheritance record.name⟩) ++
    interfaces.map fun record => ⟨record.position, .cyclicExtension record.name⟩

end Declarations

/-- The first pass under way: what has been collected and found so far. -/
structure DeclarationPass where
  model : SymbolModel
  findings : List Finding
  state : PassState

namespace DeclarationPass

/-- The pass before any file. -/
def start : DeclarationPass := ⟨.withBuiltins, [], .notStarted⟩

/-- The pass after one more file. -/
def read (pass : DeclarationPass) (program : Program) : DeclarationPass :=
  let collected := Declarations.addProgram pass.model program
  ⟨collected.value, pass.findings ++ collected.findings, .traversing⟩

/-- The result of the pass: the model, and the findings with the cycles
behind the rest. -/
def result (pass : DeclarationPass) : Reported SymbolModel :=
  ⟨pass.model, pass.findings ++ Declarations.cycleFindings pass.model⟩

/-- The pass after its result has been taken.  It starts over without any
declaration, not even of a builtin function. -/
def emptied (pass : DeclarationPass) : DeclarationPass :=
  ⟨.empty, [], .finished pass.result.findings⟩

end DeclarationPass

/-- The symbol model of programs, taken in their order. -/
def SymbolModel.ofPrograms (programs : List Program) : Reported SymbolModel :=
  (programs.foldl DeclarationPass.read .start).result

end KnightFront
