import KnightFront.Proofs.Tree.Written
import KnightFront.Tree.Printer

namespace KnightFront

/-!
# The tokens of printed source

Printing a tree can be said without characters, as the list of the tokens
that the printed text consists of.  For every form of tree that source text
can write, the printed text spells exactly these tokens, in front of any text
that they do not run on into.
-/

/-- The tokens of a printed type. -/
def Ty.tokens : Ty → List TokenContent
  | int => [(.intWord, "int")]
  | string => [(.stringWord, "string")]
  | bool => [(.boolWord, "bool")]
  | void => [(.voidWord, "void")]
  | array .int => [(.intWord, "int"), (.openBracket, "["), (.closeBracket, "]")]
  | array .string => [(.stringWord, "string"), (.openBracket, "["), (.closeBracket, "]")]
  | named name => [(.identifier, name)]
  | function => []
  | error => []

theorem contents?_describe {ty : Ty} (written : ty.Written) {rest : List Char}
    (boundary : Boundary rest) :
    contents? (ty.describe.toList ++ rest) = (contents? rest).map (ty.tokens ++ ·) := by
  cases ty with
  | int => exact contents?_reserved (by decide) boundary
  | string => exact contents?_reserved (by decide) boundary
  | bool => exact contents?_reserved (by decide) boundary
  | void => exact contents?_reserved (by decide) boundary
  | array element =>
      cases element with
      | int =>
          have word := contents?_reserved (show ("int", .intWord) ∈ TokenKind.reservedWords by decide)
            (show Boundary ('[' :: ']' :: rest) by simp [isWordPart])
          simpa [Ty.describe, Ty.tokens, Function.comp_def] using word
      | string =>
          have word := contents?_reserved
            (show ("string", .stringWord) ∈ TokenKind.reservedWords by decide)
            (show Boundary ('[' :: ']' :: rest) by simp [isWordPart])
          simpa [Ty.describe, Ty.tokens, Function.comp_def] using word
  | named name => exact contents?_identifier written boundary
  | function => exact written.elim
  | error => exact written.elim

namespace Expr

mutual

/-- The tokens of a printed expression. -/
def tokens : Expr → List TokenContent
  | int _ value => [(.number, toString value)]
  | string _ value => [(.string, value)]
  | bool _ value => [if value then (.trueWord, "true") else (.falseWord, "false")]
  | name _ used => [(.identifier, used.text)]
  | binary _ op left right =>
      (.openParen, "(") :: (tokens left ++ (op.token, op.symbol) :: (tokens right ++ [(.closeParen, ")")]))
  | call _ callee args =>
      (.identifier, callee.text) :: (.openParen, "(") :: (tokensOfList args ++ [(.closeParen, ")")])
  | methodCall _ receiver callee args =>
      tokens receiver ++ (.dot, ".") :: (.identifier, callee.text) :: (.openParen, "(") ::
        (tokensOfList args ++ [(.closeParen, ")")])
  | field _ receiver used => tokens receiver ++ [(.dot, "."), (.identifier, used.text)]
  | newInstance _ className =>
      [(.newWord, "new"), (.identifier, className.text), (.openParen, "("), (.closeParen, ")")]
  | newArray _ element length =>
      (.newWord, "new") :: (element.ty.tokens ++ (.openBracket, "[") ::
        (tokens length ++ [(.closeBracket, "]")]))
  | index _ base position =>
      tokens base ++ (.openBracket, "[") :: (tokens position ++ [(.closeBracket, "]")])
  | array _ items => (.openBracket, "[") :: (tokensOfList items ++ [(.closeBracket, "]")])

/-- The tokens of printed expressions with commas between them. -/
def tokensOfList : List Expr → List TokenContent
  | [] => []
  | [only] => tokens only
  | first :: second :: rest => tokens first ++ (.comma, ",") :: tokensOfList (second :: rest)

end

theorem ElementTy.written_ty (element : ElementTy) : element.ty.Written := by
  cases element <;> trivial

mutual

/-- A printed expression spells its tokens. -/
theorem contents?_print : (expr : Expr) → expr.Written → (rest : List Char) → Boundary rest →
    contents? (expr.print.toList ++ rest) = (contents? rest).map (expr.tokens ++ ·)
  | int _ value, written, rest, boundary => by
      rcases Int.eq_ofNat_of_zero_le (written_int.mp written).1 with ⟨size, rfl⟩
      exact contents?_toString size boundary
  | string _ value, _, rest, _ => by
      simpa only [print, tokens, List.cons_append, List.nil_append] using contents?_encode value rest
  | bool _ true, _, rest, boundary =>
      contents?_reserved (show ("true", .trueWord) ∈ TokenKind.reservedWords by decide) boundary
  | bool _ false, _, rest, boundary =>
      contents?_reserved (show ("false", .falseWord) ∈ TokenKind.reservedWords by decide) boundary
  | name _ used, written, rest, boundary =>
      contents?_identifier (written_name.mp written).identifier boundary
  | binary _ op left right, written, rest, boundary => by
      rw [written_binary] at written
      have first := contents?_print left written.1
      have second := contents?_print right written.2
      simp [print, tokens, first, second, contents?_symbol, isWordPart, Function.comp_def]
  | call _ callee args, written, rest, boundary => by
      rw [written_call] at written
      have arguments := contents?_printList args written.2
      simp [print, tokens, contents?_identifier written.1.identifier, arguments, isWordPart, Function.comp_def]
  | methodCall _ receiver callee args, written, rest, boundary => by
      rw [written_methodCall] at written
      have before := contents?_print receiver written.2.1
      have arguments := contents?_printList args written.2.2
      simp [print, tokens, before, contents?_identifier written.1.identifier, arguments, isWordPart,
        Function.comp_def]
  | field _ receiver used, written, rest, boundary => by
      rw [written_field] at written
      have before := contents?_print receiver written.2
      simp [print, tokens, before, contents?_identifier written.1.identifier boundary, isWordPart,
        Function.comp_def]
  | newInstance _ className, written, rest, boundary => by
      have spelled := contents?_identifier (written_newInstance.mp written).identifier
        (show Boundary ('(' :: ')' :: rest) by simp [isWordPart])
      simp [print, tokens, spelled, Function.comp_def]
  | newArray _ element length, written, rest, boundary => by
      rw [written_newArray] at written
      have inner := contents?_print length written
      have word := contents?_describe (ElementTy.written_ty element)
        (show Boundary ('[' :: (length.print.toList ++ ']' :: rest)) by simp [isWordPart])
      simp [print, tokens, word, inner, isWordPart, Function.comp_def]
  | index _ base position, written, rest, boundary => by
      rw [written_index] at written
      have first := contents?_print base written.1
      have second := contents?_print position written.2
      simp [print, tokens, first, second, isWordPart, Function.comp_def]
  | array _ items, written, rest, boundary => by
      rw [written_array] at written
      have inner := contents?_printList items written
      simp [print, tokens, inner, isWordPart, Function.comp_def]

/-- Printed expressions with commas between them spell their tokens. -/
theorem contents?_printList : (exprs : List Expr) → WrittenList exprs → (rest : List Char) →
    Boundary rest →
    contents? ((printList exprs).toList ++ rest) = (contents? rest).map (tokensOfList exprs ++ ·)
  | [], _, rest, _ => by simp [printList, tokensOfList]
  | [only], written, rest, boundary => by
      simpa [printList, tokensOfList] using
        contents?_print only (writtenList_cons.mp written).1 rest boundary
  | first :: second :: others, written, rest, boundary => by
      have head := contents?_print first (writtenList_cons.mp written).1
      have tail := contents?_printList (second :: others) (writtenList_cons.mp written).2 rest boundary
      simp [printList, tokensOfList, head, tail, isWordPart, Function.comp_def]

end

end Expr

/-- The tokens of a printed declaration, without its semicolon. -/
def VarDecl.tokens (decl : VarDecl) : List TokenContent :=
  decl.ty.tokens ++ (.identifier, decl.name) ::
    match decl.init with
    | none => []
    | some init => (.assignment, "=") :: init.tokens

/-- The tokens of a printed declaration with its semicolon. -/
def VarDecl.lineTokens (decl : VarDecl) : List TokenContent :=
  decl.tokens ++ [(.semicolon, ";")]

/-- The tokens of a printed assignment, without its semicolon. -/
def Assignment.tokens (assignment : Assignment) : List TokenContent :=
  (.identifier, assignment.target.text) ::
    ((match assignment.index with
    | none => []
    | some index => (.openBracket, "[") :: (index.tokens ++ [(.closeBracket, "]")])) ++
    (.assignment, "=") :: assignment.value.tokens)

/-- The tokens of a printed return, with its semicolon. -/
def Return.tokens (returned : Return) : List TokenContent :=
  (.retWord, "ret") ::
    ((match returned.value with
    | none => []
    | some value => value.tokens) ++ [(.semicolon, ";")])

theorem VarDecl.contents?_print {decl : VarDecl} (written : decl.Written) {rest : List Char}
    (boundary : Boundary rest) :
    contents? (decl.print.toList ++ rest) = (contents? rest).map (decl.tokens ++ ·) := by
  cases held : decl.init with
  | none =>
      have word := contents?_describe written.ty
        (show Boundary (' ' :: (decl.name.toList ++ rest)) by simp [isWordPart])
      simp [print, tokens, held, word, contents?_identifier written.name boundary, Function.comp_def]
  | some init =>
      have word := contents?_describe written.ty
        (show Boundary (' ' :: (decl.name.toList ++ ' ' :: '=' :: ' ' :: (init.print.toList ++ rest)))
          by simp [isWordPart])
      have value := init.contents?_print (written.exprs init (by simp [exprs, held])) rest boundary
      simp [print, tokens, held, word, contents?_identifier written.name, value, isWordPart,
        Function.comp_def]

theorem Assignment.contents?_print {assignment : Assignment} (written : assignment.Written)
    {rest : List Char} (boundary : Boundary rest) :
    contents? (assignment.print.toList ++ rest) =
      (contents? rest).map (assignment.tokens ++ ·) := by
  have value := assignment.value.contents?_print
    (written.exprs assignment.value (by simp [exprs])) rest boundary
  cases held : assignment.index with
  | none =>
      simp [print, tokens, held, contents?_identifier written.target.identifier, value, isWordPart,
        Function.comp_def]
  | some index =>
      have inner := index.contents?_print (written.exprs index (by simp [exprs, held]))
      simp [print, tokens, held, contents?_identifier written.target.identifier, inner, value, isWordPart,
        Function.comp_def]

theorem Return.contents?_print {returned : Return} (written : returned.Written) (rest : List Char) :
    contents? (returned.print.toList ++ rest) = (contents? rest).map (returned.tokens ++ ·) := by
  cases held : returned.value with
  | none => simp [print, tokens, held]
  | some value =>
      have inner := value.contents?_print (written value (by simp [exprs, held]))
      simp [print, tokens, held, inner, isWordPart, Function.comp_def]

theorem contents?_replicate_space (count : Nat) (rest : List Char) :
    contents? (List.replicate count ' ' ++ rest) = contents? rest := by
  induction count with
  | zero => rfl
  | succ count inductionHypothesis => simp [List.replicate_succ, inductionHypothesis]

@[simp]
theorem contents?_indented (depth : Nat) (text : String) (rest : List Char) :
    contents? ((indented depth text).toList ++ rest) = contents? (text.toList ++ rest) := by
  simp [indented, contents?_replicate_space]

@[simp]
theorem textOfLines_nil : textOfLines [] = "" := rfl

@[simp]
theorem textOfLines_cons (line : String) (rest : List String) :
    textOfLines (line :: rest) = line ++ "\n" ++ textOfLines rest := rfl

@[simp]
theorem textOfLines_append (first second : List String) :
    textOfLines (first ++ second) = textOfLines first ++ textOfLines second := by
  induction first with
  | nil => simp
  | cons line rest inductionHypothesis => simp [inductionHypothesis, String.append_assoc]

namespace Stmt

mutual

/-- The tokens of a printed statement. -/
def tokens : Stmt → List TokenContent
  | varDecl _ decl => decl.lineTokens
  | assign assignment => assignment.tokens ++ [(.semicolon, ";")]
  | fieldAssign _ receiver used value =>
      receiver.tokens ++ (.dot, ".") :: (.identifier, used.text) :: (.assignment, "=") ::
        (value.tokens ++ [(.semicolon, ";")])
  | call _ expr => expr.tokens ++ [(.semicolon, ";")]
  | ifThen _ condition body =>
      (.ifWord, "if") :: (.openParen, "(") :: (condition.tokens ++ (.closeParen, ")") :: tokens body)
  | ifElse _ condition body alternative =>
      (.ifWord, "if") :: (.openParen, "(") :: (condition.tokens ++ (.closeParen, ")") ::
        (tokens body ++ (.elseWord, "else") :: tokens alternative))
  | whileLoop _ condition body =>
      (.whileWord, "while") :: (.openParen, "(") ::
        (condition.tokens ++ (.closeParen, ")") :: tokens body)
  | forLoop _ init condition update body _ =>
      (.forWord, "for") :: (.openParen, "(") :: (init.lineTokens ++
        (condition.tokens ++ (.semicolon, ";") ::
          (update.tokens ++ (.closeParen, ")") :: tokens body)))
  | ret _ returned => returned.tokens
  | block _ stmts _ => (.openCurly, "\x7b") :: (tokensOfList stmts ++ [(.closeCurly, "\x7d")])

/-- The tokens of printed statements. -/
def tokensOfList : List Stmt → List TokenContent
  | [] => []
  | first :: rest => tokens first ++ tokensOfList rest

end

mutual

/-- The lines of a statement spell its tokens, at any depth. -/
theorem contents?_lines : (stmt : Stmt) → stmt.Written → (depth : Nat) → (rest : List Char) →
    contents? ((textOfLines (stmt.lines depth)).toList ++ rest) =
      (contents? rest).map (stmt.tokens ++ ·)
  | varDecl _ decl, written, depth, rest => by
      simp [lines, tokens, VarDecl.lineTokens, decl.contents?_print written, isWordPart,
        Function.comp_def]
  | assign assignment, written, depth, rest => by
      simp [lines, tokens, assignment.contents?_print written, isWordPart, Function.comp_def]
  | fieldAssign _ receiver used value, written, depth, rest => by
      obtain ⟨receiverWritten, -, name, valueWritten⟩ := written
      simp [lines, tokens, receiver.contents?_print receiverWritten, contents?_identifier name.identifier,
        value.contents?_print valueWritten, isWordPart, Function.comp_def]
  | call _ expr, written, depth, rest => by
      simp [lines, tokens, expr.contents?_print written.1, isWordPart, Function.comp_def]
  | ifThen _ condition body, written, depth, rest => by
      simp [lines, tokens, condition.contents?_print written.1, contents?_lines body written.2.1,
        isWordPart, Function.comp_def]
  | ifElse _ condition body alternative, written, depth, rest => by
      obtain ⟨conditionWritten, bodyWritten, alternativeWritten, -⟩ := written
      simp [lines, tokens, condition.contents?_print conditionWritten,
        contents?_lines body bodyWritten, contents?_lines alternative alternativeWritten, isWordPart,
        Function.comp_def]
  | whileLoop _ condition body, written, depth, rest => by
      simp [lines, tokens, condition.contents?_print written.1, contents?_lines body written.2.1,
        isWordPart, Function.comp_def]
  | forLoop _ init condition update body _, written, depth, rest => by
      obtain ⟨initWritten, conditionWritten, updateWritten, bodyWritten, -⟩ := written
      simp [lines, tokens, VarDecl.lineTokens, init.contents?_print initWritten,
        condition.contents?_print conditionWritten, update.contents?_print updateWritten,
        contents?_lines body bodyWritten, isWordPart, Function.comp_def]
  | ret _ returned, written, depth, rest => by
      simp [lines, tokens, returned.contents?_print written]
  | block _ stmts _, written, depth, rest => by
      simp [lines, tokens, contents?_linesOfList stmts written, Function.comp_def]

/-- The lines of several statements spell their tokens. -/
theorem contents?_linesOfList : (stmts : List Stmt) → WrittenList stmts → (depth : Nat) →
    (rest : List Char) →
    contents? ((textOfLines (linesOfList depth stmts)).toList ++ rest) =
      (contents? rest).map (tokensOfList stmts ++ ·)
  | [], _, _, rest => by simp [linesOfList, tokensOfList]
  | first :: others, written, depth, rest => by
      simp [linesOfList, tokensOfList, contents?_lines first written.1,
        contents?_linesOfList others written.2, Function.comp_def]

end

end Stmt

/-! ## Declarations -/

/-- Token lists with commas between them. -/
def commaTokens (parts : List (List TokenContent)) : List TokenContent :=
  [(.comma, ",")].intercalate parts

@[simp]
theorem commaTokens_nil : commaTokens [] = [] := rfl

@[simp]
theorem commaTokens_singleton (only : List TokenContent) : commaTokens [only] = only := by
  simp [commaTokens]

@[simp]
theorem commaTokens_cons_cons (first second : List TokenContent)
    (others : List (List TokenContent)) :
    commaTokens (first :: second :: others) =
      first ++ (.comma, ",") :: commaTokens (second :: others) := by
  simp [commaTokens, List.intercalate_cons_cons]

theorem printNames_cons_cons (first second : String) (others : List String) :
    printNames (first :: second :: others) = first ++ ", " ++ printNames (second :: others) :=
  String.intercalate_cons_cons

/-- Texts that spell their tokens still do so with commas between them. -/
theorem contents?_printNames {α : Type} (texts : α → String) (tokens : α → List TokenContent)
    {listed : List α} {rest : List Char} (boundary : Boundary rest)
    (spelled : ∀ element ∈ listed, ∀ others, Boundary others →
      contents? ((texts element).toList ++ others) = (contents? others).map (tokens element ++ ·)) :
    contents? ((printNames (listed.map texts)).toList ++ rest) =
      (contents? rest).map (commaTokens (listed.map tokens) ++ ·) := by
  induction listed with
  | nil => simp [printNames]
  | cons first others inductionHypothesis =>
      have head := spelled first List.mem_cons_self
      have tail := inductionHypothesis
        fun element member => spelled element (List.mem_cons_of_mem first member)
      cases others with
      | nil => simpa [printNames] using head rest boundary
      | cons second more =>
          simp only [List.map_cons] at tail ⊢
          simp [printNames_cons_cons, head, tail, isWordPart, Function.comp_def]

/-- The tokens of a printed parameter. -/
def Param.tokens (param : Param) : List TokenContent :=
  param.ty.tokens ++ [(.identifier, param.name)]

theorem Param.contents?_print {param : Param} (written : param.Written) {rest : List Char}
    (boundary : Boundary rest) :
    contents? ((param.ty.describe ++ " " ++ param.name).toList ++ rest) =
      (contents? rest).map (param.tokens ++ ·) := by
  have word := contents?_describe written.ty
    (show Boundary (' ' :: (param.name.toList ++ rest)) by simp [isWordPart])
  simp [tokens, word, contents?_identifier written.name boundary, Function.comp_def]

/-- The tokens of a printed head, without a brace or semicolon. -/
def FunctionHead.tokens (head : FunctionHead) : List TokenContent :=
  (.fnWord, "fn") :: (.identifier, head.name) :: (.openParen, "(") ::
    (commaTokens (head.params.map Param.tokens) ++ (.closeParen, ")") :: (.colon, ":") ::
      head.returnTy.tokens)

theorem FunctionHead.contents?_print {head : FunctionHead} (written : head.Written)
    (rest : List Char) (boundary : Boundary rest) :
    contents? (head.print.toList ++ rest) = (contents? rest).map (head.tokens ++ ·) := by
  have inner := contents?_printNames (fun param : Param => param.ty.describe ++ " " ++ param.name)
    Param.tokens
    (show Boundary (')' :: ':' :: ' ' :: (head.returnTy.describe.toList ++ rest)) by
      simp [isWordPart])
    (fun param member _ behind => Param.contents?_print (written.params param member) behind)
  simp [print, tokens, contents?_identifier written.name, inner,
    contents?_describe written.returnTy boundary, isWordPart, Function.comp_def]

/-- The tokens of a printed function. -/
def FunctionDecl.tokens (decl : FunctionDecl) : List TokenContent :=
  decl.head.tokens ++ (.openCurly, "\x7b") ::
    (Stmt.tokensOfList decl.body ++ ((decl.closing.map Return.tokens).getD [] ++
      [(.closeCurly, "\x7d")]))

theorem FunctionDecl.contents?_lines {decl : FunctionDecl} (written : decl.Written) (depth : Nat)
    (rest : List Char) :
    contents? ((textOfLines (decl.lines depth)).toList ++ rest) =
      (contents? rest).map (decl.tokens ++ ·) := by
  have head := decl.head.contents?_print written.head
  have body := Stmt.contents?_linesOfList decl.body (Stmt.writtenList_iff.mpr written.body)
  cases held : decl.closing with
  | none => simp [lines, tokens, braced, held, head, body, isWordPart, Function.comp_def]
  | some returned =>
      have closing := returned.contents?_print (written.closing returned held)
      simp [lines, tokens, braced, held, head, body, closing, isWordPart, Function.comp_def]

/-- The tokens of a clause that a keyword opens, unless it names nothing. -/
def nameClauseTokens (keyword : TokenContent) (names : List NameUse) : List TokenContent :=
  if names.isEmpty then []
  else keyword :: commaTokens (names.map fun used => [(.identifier, used.text)])

theorem contents?_nameClause {keyword : String} {kind : TokenKind}
    (reserved : (keyword, kind) ∈ TokenKind.reservedWords) {names : List NameUse}
    (written : ∀ used ∈ names, used.Written) (rest : List Char)
    (boundary : Boundary rest) :
    contents? ((nameClause keyword names).toList ++ rest) =
      (contents? rest).map (nameClauseTokens (kind, keyword) names ++ ·) := by
  by_cases empty : names.isEmpty = true
  · simp [nameClause, nameClauseTokens, empty]
  · have spelled := contents?_printNames NameUse.text
      (fun used => [(.identifier, used.text)]) boundary
      (fun used member _ behind => contents?_identifier (written used member).identifier behind)
    simp [nameClause, nameClauseTokens, empty, contents?_keyword reserved, spelled,
      Function.comp_def]

theorem boundary_nameClause {keyword : String} {names : List NameUse} {rest : List Char}
    (boundary : Boundary rest) : Boundary ((nameClause keyword names).toList ++ rest) := by
  by_cases empty : names.isEmpty = true <;> simp [nameClause, empty, boundary, isWordPart]

/-- Lines that are printed for each of several things spell the tokens of each. -/
theorem contents?_textOfLines {α : Type} {lines : α → List String} {tokens : α → List TokenContent}
    {listed : List α}
    (spelled : ∀ element ∈ listed, ∀ rest, contents? ((textOfLines (lines element)).toList ++ rest) =
      (contents? rest).map (tokens element ++ ·)) (rest : List Char) :
    contents? ((textOfLines (listed.flatMap lines)).toList ++ rest) =
      (contents? rest).map (listed.flatMap tokens ++ ·) := by
  induction listed with
  | nil => simp
  | cons first others inductionHypothesis =>
      have head := spelled first List.mem_cons_self
      have tail := inductionHypothesis
        fun element member => spelled element (List.mem_cons_of_mem first member)
      simp [head, tail, Function.comp_def]

/-- The tokens of a method head in an interface. -/
def FunctionHead.lineTokens (head : FunctionHead) : List TokenContent :=
  head.tokens ++ [(.semicolon, ";")]

/-- The tokens of a printed interface. -/
def InterfaceDecl.tokens (decl : InterfaceDecl) : List TokenContent :=
  (.interfaceWord, "interface") :: (.identifier, decl.name) ::
    (nameClauseTokens (.extWord, "ext") decl.bases ++ (.openCurly, "\x7b") ::
      (decl.methods.flatMap FunctionHead.lineTokens ++ [(.closeCurly, "\x7d")]))

theorem InterfaceDecl.contents?_lines {decl : InterfaceDecl} (written : decl.Written)
    (rest : List Char) :
    contents? ((textOfLines decl.lines).toList ++ rest) =
      (contents? rest).map (decl.tokens ++ ·) := by
  have bases := contents?_nameClause (show ("ext", .extWord) ∈ TokenKind.reservedWords by decide)
    written.bases
  have name : ∀ others, contents? (decl.name.toList ++
      ((nameClause "ext" decl.bases).toList ++ ' ' :: others)) = _ := fun others =>
    contents?_identifier written.name (boundary_nameClause (by simp [isWordPart]))
  have method : ∀ head ∈ decl.methods, ∀ others,
      contents? ((textOfLines [indented 1 (head.print ++ ";")]).toList ++ others) =
        (contents? others).map (head.lineTokens ++ ·) := fun head member others => by
    simp [FunctionHead.lineTokens, head.contents?_print (written.methods head member), isWordPart,
      Function.comp_def]
  have methods := contents?_textOfLines method
  simp [lines, tokens, braced, List.map_eq_flatMap, bases, name, methods, isWordPart,
    Function.comp_def]

/-- The tokens of a printed class. -/
def ClassDecl.tokens (decl : ClassDecl) : List TokenContent :=
  (.classWord, "class") :: (.identifier, decl.name) ::
    (nameClauseTokens (.extWord, "ext") decl.parent.toList ++
      (nameClauseTokens (.useWord, "use") decl.uses ++ (.openCurly, "\x7b") ::
        (decl.fields.flatMap VarDecl.lineTokens ++
          (decl.methods.flatMap FunctionDecl.tokens ++ [(.closeCurly, "\x7d")]))))

theorem ClassDecl.contents?_lines {decl : ClassDecl} (written : decl.Written) (rest : List Char) :
    contents? ((textOfLines decl.lines).toList ++ rest) =
      (contents? rest).map (decl.tokens ++ ·) := by
  have parent := contents?_nameClause (show ("ext", .extWord) ∈ TokenKind.reservedWords by decide)
    (fun used member => written.parent used (Option.mem_toList.mp member))
  have uses := contents?_nameClause (show ("use", .useWord) ∈ TokenKind.reservedWords by decide)
    written.uses
  have behindUses : ∀ others,
      Boundary ((nameClause "use" decl.uses).toList ++ ' ' :: others) := fun others =>
    boundary_nameClause (by simp [isWordPart])
  have name : ∀ others, Boundary others → contents? (decl.name.toList ++
      ((nameClause "ext" decl.parent.toList).toList ++ others)) = _ := fun others boundary =>
    contents?_identifier written.name (boundary_nameClause boundary)
  have field : ∀ field ∈ decl.fields, ∀ others,
      contents? ((textOfLines [indented 1 (field.print ++ ";")]).toList ++ others) =
        (contents? others).map (field.lineTokens ++ ·) := fun field member others => by
    simp [VarDecl.lineTokens, field.contents?_print (written.fields field member), isWordPart,
      Function.comp_def]
  have fields := contents?_textOfLines field
  have methods := contents?_textOfLines
    (fun method member => FunctionDecl.contents?_lines (written.methods method member) 1)
  simp [lines, tokens, braced, List.map_eq_flatMap, parent, uses, behindUses, name, fields, methods,
    isWordPart, Function.comp_def]

/-- The tokens of the members of a printed enumeration. -/
def memberTokens (member : String × Span) : List TokenContent :=
  [(.identifier, member.1), (.comma, ",")]

namespace Item

/-- The tokens of a printed declaration. -/
def tokens : Item → List TokenContent
  | inclusion decl =>
      [(.includeWord, "include"), (.less, "<"), (.identifier, decl.name), (.greater, ">")]
  | enumeration decl =>
      (.enumWord, "enum") :: (.identifier, decl.name) :: (.openCurly, "\x7b") ::
        (decl.members.flatMap memberTokens ++ [(.closeCurly, "\x7d")])
  | interface decl => decl.tokens
  | classDecl decl => decl.tokens
  | function decl => decl.tokens
  | globalVariable decl => decl.lineTokens

/-- The lines of a declaration spell its tokens. -/
theorem contents?_lines {item : Item} (written : item.Written) (rest : List Char) :
    contents? ((textOfLines item.lines).toList ++ rest) =
      (contents? rest).map (item.tokens ++ ·) := by
  cases item with
  | inclusion decl =>
      have name := contents?_identifier written
        (show Boundary ('>' :: '\n' :: rest) by simp [isWordPart])
      have opening := contents?_lessIdentifier written ('>' :: '\n' :: rest)
      simp [lines, tokens, opening, name, Function.comp_def]
  | enumeration decl =>
      have member : ∀ member ∈ decl.members, ∀ others,
          contents? ((textOfLines [indented 1 (member.1 ++ ",")]).toList ++ others) =
            (contents? others).map (memberTokens member ++ ·) := fun member held others => by
        simp [memberTokens, contents?_identifier (written.2 member held), isWordPart,
          Function.comp_def]
      have members := contents?_textOfLines member
      simp [lines, tokens, braced, List.map_eq_flatMap, contents?_identifier written.1, members,
        isWordPart, Function.comp_def]
  | interface decl => exact decl.contents?_lines written rest
  | classDecl decl => exact decl.contents?_lines written rest
  | function decl => exact decl.contents?_lines written 0 rest
  | globalVariable decl =>
      simp [lines, tokens, VarDecl.lineTokens, decl.contents?_print written, isWordPart,
        Function.comp_def]

end Item

namespace Program

/-- The tokens of a printed file, without the end of input. -/
def tokens (program : Program) : List TokenContent := program.items.flatMap Item.tokens

/-- A printed file spells the tokens of its declarations. -/
theorem contents?_print {program : Program} (written : program.Written) :
    contents? program.print.toList = some (program.tokens ++ [(.eof, "EOF")]) := by
  rcases program with ⟨file, items, scopes⟩
  induction items with
  | nil => simp [print, tokens]
  | cons first others inductionHypothesis =>
      have head := Item.contents?_lines (written first List.mem_cons_self)
      have tail := inductionHypothesis
        fun item member => written item (List.mem_cons_of_mem first member)
      simp only [print, tokens] at tail ⊢
      cases others with
      | nil => simpa using head []
      | cons second more =>
          simp only [List.map_cons] at tail ⊢
          simp [-String.toList_intercalate, head, tail]

end Program

end KnightFront
