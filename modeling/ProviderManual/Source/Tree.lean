/-! Named nodes only, each in the role that it has for its parent. -/

namespace ProviderManual.Source

inductive NodeKind where
  | identifier
  | fieldIdentifier
  | packageIdentifier
  | typeIdentifier
  | blankIdentifier
  | dot
  | labelName
  | trueName
  | falseName
  | nil
  | iota
  | interpretedStringLiteral
  | rawStringLiteral
  | intLiteral
  | floatLiteral
  | imaginaryLiteral
  | runeLiteral
  | selectorExpression
  | indexExpression
  | sliceExpression
  | callExpression
  | typeAssertionExpression
  | typeConversionExpression
  | typeInstantiationExpression
  | unaryExpression
  | binaryExpression
  | parenthesizedExpression
  | compositeLiteral
  | literalValue
  | literalElement
  | keyedElement
  | funcLiteral
  | argumentList
  | typeArguments
  | variadicArgument
  | expressionList
  | qualifiedType
  | pointerType
  | sliceType
  | arrayType
  | implicitLengthArrayType
  | mapType
  | channelType
  | functionType
  | interfaceType
  | structType
  | genericType
  | parenthesizedType
  | negatedType
  | typeElem
  | methodElem
  | fieldDeclarationList
  | fieldDeclaration
  | parameterList
  | parameterDeclaration
  | variadicParameterDeclaration
  | typeParameterList
  | typeParameterDeclaration
  | typeConstraint
  | expressionStatement
  | sendStatement
  | incStatement
  | decStatement
  | assignmentStatement
  | shortVarDeclaration
  | returnStatement
  | goStatement
  | deferStatement
  | ifStatement
  | forStatement
  | forClause
  | rangeClause
  | expressionSwitchStatement
  | expressionCase
  | defaultCase
  | typeSwitchStatement
  | typeCase
  | selectStatement
  | communicationCase
  | receiveStatement
  | labeledStatement
  | gotoStatement
  | breakStatement
  | continueStatement
  | fallthroughStatement
  | emptyStatement
  | block
  | statementList
  | varDeclaration
  | varSpec
  | varSpecList
  | constDeclaration
  | constSpec
  | typeDeclaration
  | typeSpec
  | typeAlias
  | packageClause
  | importDeclaration
  | importSpec
  | importSpecList
  | functionDeclaration
  | methodDeclaration
  | comment
  deriving DecidableEq, Repr

namespace NodeKind

def name : NodeKind → String
  | .identifier => "identifier"
  | .fieldIdentifier => "field_identifier"
  | .packageIdentifier => "package_identifier"
  | .typeIdentifier => "type_identifier"
  | .blankIdentifier => "blank_identifier"
  | .dot => "dot"
  | .labelName => "label_name"
  | .trueName => "true"
  | .falseName => "false"
  | .nil => "nil"
  | .iota => "iota"
  | .interpretedStringLiteral => "interpreted_string_literal"
  | .rawStringLiteral => "raw_string_literal"
  | .intLiteral => "int_literal"
  | .floatLiteral => "float_literal"
  | .imaginaryLiteral => "imaginary_literal"
  | .runeLiteral => "rune_literal"
  | .selectorExpression => "selector_expression"
  | .indexExpression => "index_expression"
  | .sliceExpression => "slice_expression"
  | .callExpression => "call_expression"
  | .typeAssertionExpression => "type_assertion_expression"
  | .typeConversionExpression => "type_conversion_expression"
  | .typeInstantiationExpression => "type_instantiation_expression"
  | .unaryExpression => "unary_expression"
  | .binaryExpression => "binary_expression"
  | .parenthesizedExpression => "parenthesized_expression"
  | .compositeLiteral => "composite_literal"
  | .literalValue => "literal_value"
  | .literalElement => "literal_element"
  | .keyedElement => "keyed_element"
  | .funcLiteral => "func_literal"
  | .argumentList => "argument_list"
  | .typeArguments => "type_arguments"
  | .variadicArgument => "variadic_argument"
  | .expressionList => "expression_list"
  | .qualifiedType => "qualified_type"
  | .pointerType => "pointer_type"
  | .sliceType => "slice_type"
  | .arrayType => "array_type"
  | .implicitLengthArrayType => "implicit_length_array_type"
  | .mapType => "map_type"
  | .channelType => "channel_type"
  | .functionType => "function_type"
  | .interfaceType => "interface_type"
  | .structType => "struct_type"
  | .genericType => "generic_type"
  | .parenthesizedType => "parenthesized_type"
  | .negatedType => "negated_type"
  | .typeElem => "type_elem"
  | .methodElem => "method_elem"
  | .fieldDeclarationList => "field_declaration_list"
  | .fieldDeclaration => "field_declaration"
  | .parameterList => "parameter_list"
  | .parameterDeclaration => "parameter_declaration"
  | .variadicParameterDeclaration => "variadic_parameter_declaration"
  | .typeParameterList => "type_parameter_list"
  | .typeParameterDeclaration => "type_parameter_declaration"
  | .typeConstraint => "type_constraint"
  | .expressionStatement => "expression_statement"
  | .sendStatement => "send_statement"
  | .incStatement => "inc_statement"
  | .decStatement => "dec_statement"
  | .assignmentStatement => "assignment_statement"
  | .shortVarDeclaration => "short_var_declaration"
  | .returnStatement => "return_statement"
  | .goStatement => "go_statement"
  | .deferStatement => "defer_statement"
  | .ifStatement => "if_statement"
  | .forStatement => "for_statement"
  | .forClause => "for_clause"
  | .rangeClause => "range_clause"
  | .expressionSwitchStatement => "expression_switch_statement"
  | .expressionCase => "expression_case"
  | .defaultCase => "default_case"
  | .typeSwitchStatement => "type_switch_statement"
  | .typeCase => "type_case"
  | .selectStatement => "select_statement"
  | .communicationCase => "communication_case"
  | .receiveStatement => "receive_statement"
  | .labeledStatement => "labeled_statement"
  | .gotoStatement => "goto_statement"
  | .breakStatement => "break_statement"
  | .continueStatement => "continue_statement"
  | .fallthroughStatement => "fallthrough_statement"
  | .emptyStatement => "empty_statement"
  | .block => "block"
  | .statementList => "statement_list"
  | .varDeclaration => "var_declaration"
  | .varSpec => "var_spec"
  | .varSpecList => "var_spec_list"
  | .constDeclaration => "const_declaration"
  | .constSpec => "const_spec"
  | .typeDeclaration => "type_declaration"
  | .typeSpec => "type_spec"
  | .typeAlias => "type_alias"
  | .packageClause => "package_clause"
  | .importDeclaration => "import_declaration"
  | .importSpec => "import_spec"
  | .importSpecList => "import_spec_list"
  | .functionDeclaration => "function_declaration"
  | .methodDeclaration => "method_declaration"
  | .comment => "comment"

def isStatement : NodeKind → Bool
  | .fieldDeclaration | .parameterDeclaration | .variadicParameterDeclaration
  | .typeParameterDeclaration | .expressionStatement | .sendStatement | .incStatement
  | .decStatement | .assignmentStatement | .shortVarDeclaration | .returnStatement
  | .goStatement | .deferStatement | .ifStatement | .forStatement | .forClause | .rangeClause
  | .expressionSwitchStatement | .expressionCase | .defaultCase | .typeSwitchStatement
  | .typeCase | .selectStatement | .communicationCase | .receiveStatement | .labeledStatement
  | .gotoStatement | .breakStatement | .continueStatement | .fallthroughStatement
  | .emptyStatement | .block | .statementList | .varDeclaration | .varSpec | .varSpecList
  | .constDeclaration | .constSpec | .typeDeclaration | .typeSpec | .packageClause
  | .importDeclaration | .importSpec | .importSpecList | .functionDeclaration
  | .methodDeclaration => true
  | _ => false

end NodeKind

inductive Role where
  | plain
  | name
  | path
  | type
  | operand
  | field
  | function
  | typeArguments
  | arguments
  | package
  | parameters
  | result
  | body
  | left
  | right
  | value
  deriving DecidableEq, Repr

/-- `text` is what a leaf spells, and the operator of a unary expression. -/
inductive Tree where
  | node (kind : NodeKind) (role : Role) (text : String) (children : List Tree)
  deriving Repr

namespace Tree

def kind : Tree → NodeKind
  | node k _ _ _ => k

def role : Tree → Role
  | node _ r _ _ => r

def text : Tree → String
  | node _ _ t _ => t

def children : Tree → List Tree
  | node _ _ _ cs => cs

def withRole (role : Role) : Tree → Tree
  | node k _ t cs => node k role t cs

def leaf (kind : NodeKind) (text : String) : Tree :=
  node kind .plain text []

def branch (kind : NodeKind) (children : List Tree) : Tree :=
  node kind .plain "" children

def child? (role : Role) (t : Tree) : Option Tree :=
  t.children.find? (·.role = role)

end Tree

structure TopNode where
  tree : Tree
  firstRow : Nat
  lastRow : Nat
  deriving Repr

end ProviderManual.Source
