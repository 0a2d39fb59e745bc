import ShaderAssist.Grammar.Definition

/-!
# The grammar of Cg programs

The patterns and scopes of the Cg and HLSL code that program blocks hold: preprocessor lines,
declarations, statements and expressions.
-/

namespace ShaderAssist

namespace Cg

/-- References to patterns of the repository. -/
def references (names : List String) : List PatternDef :=
  names.map .reference

/-- What may stand in a block. -/
def statements : List PatternDef :=
  references ["if", "for", "while", "doWhile", "return", "jump", "blockStatement",
    "variableDeclaration", "expressionStatement"]

/-- What may stand in a program. -/
def programContent : List PatternDef :=
  references ["pragma", "include", "define", "directive", "cbuffer", "struct", "function",
    "variableDeclaration", "expressionStatement"]

/-- A program between two delimiters. -/
def programScope (opening closing : String) (collector : Collector) : ScopeDef where
  name := some "Cg Program"
  opening := opening
  closing := closing
  patterns := programContent
  collector := some collector
  provider := some .program

/-- The scopes of Cg. -/
def scopes : List (String × ScopeDef) := [
  ("cgProgram", programScope "CGPROGRAM" "ENDCG" .program),
  ("cgInclude", programScope "CGINCLUDE" "ENDCG" .includeBlock),
  ("hlslProgram", programScope "HLSLPROGRAM" "ENDHLSL" .program),
  ("hlslInclude", programScope "HLSLINCLUDE" "ENDHLSL" .includeBlock),
  ("block",
    { name := some "Block"
      opening := "\x7b"
      closing := "\x7d"
      patterns := statements
      collector := some .block
      provider := some .block })]

/-- Words before the type of a declaration. -/
def modifier : PatternDef :=
  .named "Modifier" [
    "/(?:static|inline|const|uniform|extern|volatile|shared|groupshared|precise|" ++
      "nointerpolation|linear|centroid|noperspective)\\b/"]

/-! ### Preprocessor lines -/

/-- The patterns of preprocessor lines. -/
def directivePatterns : List (String × PatternDef) := [
  ("pragma",
    { PatternDef.named "Pragma" ["#pragma <command>[ <argument>...]"] with
      keepSpace := true
      dictionary := [
        ("argument", { sources := ["<string>", "<number>", "/[_a-zA-Z0-9.\\-]+/"] })]
      provider := some .pragma }),
  ("include",
    { PatternDef.named "Include" ["#include <path>"] with
      dictionary := [("path", { sources := ["<string>", "/<[^>\\n]*>/"] })] }),
  ("define",
    { PatternDef.named "Define" ["#define <macro>[ <value>]"] with
      keepSpace := true
      dictionary := [("value", { sources := ["/\\S[^\\n]*/"] })] }),
  ("directive",
    .named "Preprocessor" [
      "/#\\s*(?:if|ifdef|ifndef|elif|else|endif|undef|error|warning|line)\\b[^\\n]*/"]),
  ("cbuffer", .named "Buffer" ["/CBUFFER_START\\([^)\\n]*\\)/", "CBUFFER_END"])]

/-! ### Declarations -/

/-- A member of a struct. -/
def structMember : PatternDef :=
  { PatternDef.named "Member" ["[<modifier> ...]<type> <name>[<arraySize>][:<semantics>];"] with
    crossLine := true
    dictionary := [("modifier", modifier)]
    collector := some .structMember
    provider := some .declaration }

/-- The patterns of declarations. -/
def declarationPatterns : List (String × PatternDef) := [
  ("struct",
    { PatternDef.named "Struct" ["struct <name> {structBody}[;]"] with
      crossLine := true
      scopes := [
        ("structBody",
          { name := some "Struct Body"
            opening := "\x7b"
            closing := "\x7d"
            patterns := [structMember] })]
      collector := some .struct }),
  ("function",
    { PatternDef.named "Function" [
        "[<modifier> ...]<type> <name>([<parameter>[, <parameter>...]])[:<semantics>] {block}"] with
      crossLine := true
      dictionary := [("modifier", modifier)]
      collector := some .function
      provider := some .declaration }),
  ("parameter",
    { PatternDef.named "Parameter" ["[<qualifier>]<type> <name>[<arraySize>][:<semantics>]"] with
      crossLine := true
      dictionary := [
        ("qualifier",
          { PatternDef.named "Qualifier" ["inout ", "in ", "out ", "uniform ", "triangle ", "point ",
              "line "] with
            keepSpace := true })]
      collector := some .parameter
      provider := some .declaration }),
  ("variableDeclaration",
    { PatternDef.named "Variable Declaration" [
        "[<modifier> ...]<type> <declarator>[, <declarator>...];"] with
      crossLine := true
      dictionary := [("modifier", modifier)]
      collector := some .variable
      provider := some .declaration }),
  ("declarator",
    { PatternDef.named "Declarator" ["<name>[<arraySize>][:<semantics>][= <initializer>]"] with
      crossLine := true
      collector := some .declarator
      provider := some .declarator }),
  ("initializer",
    { PatternDef.named "Initializer" [
        "\\\x7b[<initializer>[, <initializer>...]][,]\\\x7d", "<expression>"] with
      crossLine := true }),
  ("arraySize", .named "Array Size" ["\\[[<expression>]\\]"])]

/-! ### Statements -/

/-- The patterns of statements. -/
def statementPatterns : List (String × PatternDef) := [
  ("if",
    { PatternDef.named "If" ["if (<expression>) <body>[ else <body>]"] with crossLine := true }),
  ("for",
    { PatternDef.named "For" ["for ([<forInit>]; [<expression>]; [<expression>]) <body>"] with
      crossLine := true
      dictionary := [
        ("forInit",
          { PatternDef.named "For Init" ["<type> <name> = <expression>", "<expression>"] with
            crossLine := true
            collector := some .forInit
            provider := some .declaration })] }),
  ("while", { PatternDef.named "While" ["while (<expression>) <body>"] with crossLine := true }),
  ("doWhile",
    { PatternDef.named "Do While" ["do <body> while (<expression>);"] with crossLine := true }),
  ("return", { PatternDef.named "Return" ["return[ <expression>];"] with crossLine := true }),
  ("jump",
    { PatternDef.named "Jump" ["break ;", "continue ;", "discard ;"] with crossLine := true }),
  ("blockStatement", .named "Block Statement" ["{block}"]),
  ("body",
    { PatternDef.named "Body" ["{block}", "<statement>"] with
      crossLine := true
      dictionary := [
        ("statement",
          { PatternDef.named "Statement" ["<if>", "<for>", "<while>", "<doWhile>", "<return>", "<jump>",
              "<variableDeclaration>", "<expressionStatement>"] with
            crossLine := true })] }),
  ("expressionStatement",
    { PatternDef.named "Expression Statement" ["<expression>;"] with crossLine := true })]

/-! ### Expressions -/

/-- The patterns of expressions. -/
def expressionPatterns : List (String × PatternDef) := [
  ("expression",
    { PatternDef.named "Expression" ["<unit>[<operator> <unit>...]"] with
      crossLine := true
      dictionary := [
        ("operator",
          .named "Operator" [
            "/(?:<<=|>>=|&&|\\|\\||<<|>>|[-+*\\/%<>=!&|^]=|[-+*\\/%<>&|^=?:])/"])] }),
  ("unit",
    { PatternDef.named "Expression Unit" [
        "<prefix><unit>",
        "(<type>)<unit>",
        "(<expression>)[<accessor>...][<postfix>]",
        "<callee>([<expression>[, <expression>...]])[<accessor>...][<postfix>]",
        "<number>",
        "<string>",
        "<variable>[<accessor>...][<postfix>]"] with
      crossLine := true
      dictionary := [
        ("postfix", { sources := ["/(?:\\+\\+|--)/"] }),
        ("prefix", { sources := ["/(?:\\+\\+|--|[-+!~])/"] })]
      provider := some .unit }),
  ("accessor",
    { PatternDef.named "Accessor" [".[<member>]", "\\[<expression>\\]"] with
      provider := some .accessor })]

/-- The patterns of Cg. -/
def patterns : List (String × PatternDef) :=
  directivePatterns ++ declarationPatterns ++ statementPatterns ++ expressionPatterns

end Cg

end ShaderAssist
