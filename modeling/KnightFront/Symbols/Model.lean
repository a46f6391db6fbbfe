import KnightFront.Symbols.Entity

namespace KnightFront

/-!
# The symbol model

The declarations of all files that are read together.  Classes, interfaces,
functions and global variables have tables of their own, so one name may be
used once in each of them.  Every program may call the builtin functions.
-/

/-- Everything that is declared at the top level. -/
structure SymbolModel where
  classes : Table ClassRecord
  interfaces : Table InterfaceRecord
  functions : Table FunctionRecord
  globals : Table Variable
deriving Inhabited

/-- A function that exists without a declaration. -/
structure Builtin where
  name : String
  parameterTys : List Ty
  returnTy : Ty

namespace Builtin

/-- The builtin functions. -/
def all : List Builtin :=
  [⟨"print", [.string], .void⟩, ⟨"read_line", [], .string⟩, ⟨"random", [.int, .int], .int⟩,
    ⟨"to_int", [.string], .int⟩, ⟨"to_string", [.int], .string⟩]

/-- The record of a builtin function.  Its parameters are named by number. -/
def record (builtin : Builtin) : FunctionRecord where
  name := builtin.name
  signature :=
    { parameters := builtin.parameterTys.mapIdx fun index ty => ("arg" ++ toString index, ty)
      returnTy := builtin.returnTy }
  locals := .empty
  position := .nowhere
  builtin := true

end Builtin

namespace SymbolModel

/-- The model without any declaration, not even of a builtin function. -/
def empty : SymbolModel := ⟨.empty, .empty, .empty, .empty⟩

/-- The model in which only the builtin functions are declared. -/
def withBuiltins : SymbolModel :=
  { empty with functions := Builtin.all.foldl (fun table builtin => table.add builtin.record) .empty }

/-- The class of a name. -/
def class? (model : SymbolModel) (name : String) : Option ClassRecord :=
  model.classes.find? name

/-- The interface of a name. -/
def interface? (model : SymbolModel) (name : String) : Option InterfaceRecord :=
  model.interfaces.find? name

/-- The free function of a name. -/
def function? (model : SymbolModel) (name : String) : Option FunctionRecord :=
  model.functions.find? name

/-- The global variable of a name. -/
def global? (model : SymbolModel) (name : String) : Option Variable :=
  model.globals.find? name

/-- Whether a name can stand as a type. -/
def isTypeName (model : SymbolModel) (name : String) : Bool :=
  model.classes.contains name || model.interfaces.contains name

/-- Declare a class, unless its name is taken by another class. -/
def addClass (model : SymbolModel) (record : ClassRecord) : SymbolModel :=
  { model with classes := model.classes.add record }

/-- Declare an interface, unless its name is taken by another interface. -/
def addInterface (model : SymbolModel) (record : InterfaceRecord) : SymbolModel :=
  { model with interfaces := model.interfaces.add record }

/-- Declare a function, unless its name is taken by another function. -/
def addFunction (model : SymbolModel) (record : FunctionRecord) : SymbolModel :=
  { model with functions := model.functions.add record }

/-- Declare a global variable, unless its name is taken by another one. -/
def addGlobal (model : SymbolModel) (entity : Variable) : SymbolModel :=
  { model with globals := model.globals.add entity }

end SymbolModel

end KnightFront
