/-! # Kinds of syntax nodes and their fields

Trees are those of a grammar for JavaScript and TypeScript. The kinds and fields that analyses tell
apart have constructors; every other kind keeps its name. -/
namespace SinkAudit

inductive Kind where
  | program
  | functionDeclaration
  | functionExpression
  | functionKeyword
  | arrowFunction
  | methodDefinition
  | generatorFunction
  | generatorDeclaration
  | stringLiteral
  | templateString
  | stringFragment
  | templateSubstitution
  | number
  | trueLiteral
  | falseLiteral
  | nullLiteral
  | undefinedLiteral
  | regex
  | parenthesized
  | awaitExpression
  | asExpression
  | satisfiesExpression
  | nonNull
  | typeAssertion
  | identifier
  | propertyIdentifier
  | shorthandProperty
  | shorthandPattern
  | privateProperty
  | typeIdentifier
  | thisKeyword
  | memberExpression
  | subscriptExpression
  | callExpression
  | newExpression
  | arguments
  | comment
  | hashBang
  | statementBlock
  | classBody
  | variableDeclarator
  | importStatement
  | importClause
  | namespaceImport
  | namedImports
  | importSpecifier
  | objectPattern
  | pairPattern
  | assignmentPattern
  | binaryExpression
  | plus
  | spreadElement
  | array
  | object
  | pair
  | ternary
  | assignment
  | augmentedAssignment
  | jsxAttribute
  | jsxExpression
  | other (name : String)
  deriving DecidableEq, Repr

namespace Kind

/-- The name of a kind in the grammar. -/
def name : Kind → String
  | .program => "program"
  | .functionDeclaration => "function_declaration"
  | .functionExpression => "function_expression"
  | .functionKeyword => "function"
  | .arrowFunction => "arrow_function"
  | .methodDefinition => "method_definition"
  | .generatorFunction => "generator_function"
  | .generatorDeclaration => "generator_function_declaration"
  | .stringLiteral => "string"
  | .templateString => "template_string"
  | .stringFragment => "string_fragment"
  | .templateSubstitution => "template_substitution"
  | .number => "number"
  | .trueLiteral => "true"
  | .falseLiteral => "false"
  | .nullLiteral => "null"
  | .undefinedLiteral => "undefined"
  | .regex => "regex"
  | .parenthesized => "parenthesized_expression"
  | .awaitExpression => "await_expression"
  | .asExpression => "as_expression"
  | .satisfiesExpression => "satisfies_expression"
  | .nonNull => "non_null_expression"
  | .typeAssertion => "type_assertion"
  | .identifier => "identifier"
  | .propertyIdentifier => "property_identifier"
  | .shorthandProperty => "shorthand_property_identifier"
  | .shorthandPattern => "shorthand_property_identifier_pattern"
  | .privateProperty => "private_property_identifier"
  | .typeIdentifier => "type_identifier"
  | .thisKeyword => "this"
  | .memberExpression => "member_expression"
  | .subscriptExpression => "subscript_expression"
  | .callExpression => "call_expression"
  | .newExpression => "new_expression"
  | .arguments => "arguments"
  | .comment => "comment"
  | .hashBang => "hash_bang_line"
  | .statementBlock => "statement_block"
  | .classBody => "class_body"
  | .variableDeclarator => "variable_declarator"
  | .importStatement => "import_statement"
  | .importClause => "import_clause"
  | .namespaceImport => "namespace_import"
  | .namedImports => "named_imports"
  | .importSpecifier => "import_specifier"
  | .objectPattern => "object_pattern"
  | .pairPattern => "pair_pattern"
  | .assignmentPattern => "object_assignment_pattern"
  | .binaryExpression => "binary_expression"
  | .plus => "+"
  | .spreadElement => "spread_element"
  | .array => "array"
  | .object => "object"
  | .pair => "pair"
  | .ternary => "ternary_expression"
  | .assignment => "assignment_expression"
  | .augmentedAssignment => "augmented_assignment_expression"
  | .jsxAttribute => "jsx_attribute"
  | .jsxExpression => "jsx_expression"
  | .other name => name

/-- The kinds that have a constructor of their own. -/
def known : List Kind :=
  [.program, .functionDeclaration, .functionExpression, .functionKeyword, .arrowFunction,
   .methodDefinition, .generatorFunction, .generatorDeclaration, .stringLiteral,
   .templateString, .stringFragment, .templateSubstitution, .number, .trueLiteral,
   .falseLiteral, .nullLiteral, .undefinedLiteral, .regex, .parenthesized, .awaitExpression,
   .asExpression, .satisfiesExpression, .nonNull, .typeAssertion, .identifier,
   .propertyIdentifier, .shorthandProperty, .shorthandPattern, .privateProperty,
   .typeIdentifier, .thisKeyword, .memberExpression, .subscriptExpression, .callExpression,
   .newExpression, .arguments, .comment, .hashBang, .statementBlock, .classBody,
   .variableDeclarator, .importStatement, .importClause, .namespaceImport, .namedImports,
   .importSpecifier, .objectPattern, .pairPattern, .assignmentPattern, .binaryExpression,
   .plus, .spreadElement, .array, .object, .pair, .ternary, .assignment, .augmentedAssignment,
   .jsxAttribute, .jsxExpression]

def ofName (s : String) : Kind := (known.find? (·.name == s)).getD (.other s)

theorem name_ofName (s : String) : (ofName s).name = s := by
  unfold ofName
  cases h : known.find? (·.name == s) with
  | none => rfl
  | some k => simpa using List.find?_some h

/-- Functions, methods and generators. -/
def isFunction : Kind → Bool
  | .functionDeclaration | .functionExpression | .functionKeyword | .arrowFunction
  | .methodDefinition | .generatorFunction | .generatorDeclaration => true
  | _ => false

/-- Values that are written out; a template string is one only without substitutions. -/
def isLiteral : Kind → Bool
  | .stringLiteral | .number | .trueLiteral | .falseLiteral | .nullLiteral | .undefinedLiteral
  | .regex => true
  | _ => false

def isString : Kind → Bool
  | .stringLiteral | .templateString => true
  | _ => false

/-- Parentheses, `await` and casts, which stand around an expression. -/
def isWrapper : Kind → Bool
  | .parenthesized | .awaitExpression | .asExpression | .satisfiesExpression | .nonNull
  | .typeAssertion => true
  | _ => false

/-- Single names. -/
def isName : Kind → Bool
  | .identifier | .propertyIdentifier | .shorthandProperty | .shorthandPattern | .privateProperty
  | .typeIdentifier => true
  | _ => false

/-- Expressions that read a variable or a part of a value. -/
def isReference : Kind → Bool
  | .identifier | .memberExpression | .subscriptExpression => true
  | _ => false

def isCall : Kind → Bool
  | .callExpression | .newExpression => true
  | _ => false

def isAssignment : Kind → Bool
  | .assignment | .augmentedAssignment => true
  | _ => false

end Kind

/-- The role of a node below its parent. -/
inductive Field where
  | localName
  | alternative
  | arguments
  | body
  | consequence
  | newCallee
  | expression
  | callee
  | index
  | key
  | left
  | declared
  | object
  | operator
  | pattern
  | property
  | right
  | source
  | value
  deriving DecidableEq, Repr

namespace Field

def name : Field → String
  | .localName => "alias"
  | .alternative => "alternative"
  | .arguments => "arguments"
  | .body => "body"
  | .consequence => "consequence"
  | .newCallee => "constructor"
  | .expression => "expression"
  | .callee => "function"
  | .index => "index"
  | .key => "key"
  | .left => "left"
  | .declared => "name"
  | .object => "object"
  | .operator => "operator"
  | .pattern => "pattern"
  | .property => "property"
  | .right => "right"
  | .source => "source"
  | .value => "value"

def all : List Field :=
  [.localName, .alternative, .arguments, .body, .consequence, .newCallee, .expression,
   .callee, .index, .key, .left, .declared, .object, .operator, .pattern, .property, .right,
   .source, .value]

def ofName? (s : String) : Option Field := all.find? (·.name == s)

end Field

end SinkAudit
