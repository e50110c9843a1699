import Relational.Token

/-!
# Errors

What can go wrong, as causes. A cause is worded in one place, in two ways: in full
(`Error.detailed`) or in a few words (`Error.brief`).
-/

namespace Relational

/-- Why a text is no statement, no condition or no list of values. -/
inductive SyntaxFault where
  | unknownCharacter (c : Char)
  | unclosedText
  | emptyCondition
  | expectedComma (found : Token)
  | expectedComparison (found : Option Token)
  | expectedOperand (found : Option Token)
  | expectedToken (expected : Token) (found : Option Token)
  | leftover (found : Token)
  | unreadableValue (text : String)
  | unreadableJoin (text : String)
  | unreadableTable (text : String)
  | reservedAlias (nickname : String)
  | badSelectList (text : String)
  | valueCount (expected found : Nat)
  | unopenedGroup
  | strayCharacter (c : Char)
  | unclosedGroup
  | missingValues
  | missingIndexColumns (index : String)
  | expectedColumn
  | missingKeyColumns (field : String)
  | severalPrimaryKeys
  | repeatedColumn (column : String)
  | unreadableColumn (field : String)
  | expectedLength
  | unknownType (type : String)
  | unknownConstraint (word : String)
deriving DecidableEq

/-- Why a database, a table or an index cannot be used as asked. -/
inductive TableFault where
  | databaseExists (database : String)
  | databaseMissing (database : String)
  | tableExists (table : String)
  | tableMissing (table : String)
  | noPrimaryKey (table : String)
  | indexExists (index : String)
  | indexMissing (index : String)
  | keyPosition (position : Nat)
  | nameTaken (name : String)
  | notInQuery (name : String)
deriving DecidableEq

/-- Which rule of a table a row breaks. -/
inductive ConstraintFault where
  | textTooLong (column : String) (limit length : Nat)
  | nullNotAllowed (column : String)
  | repeatedKey (table key : String)
  | repeatedValue (column value : String)
  | repeatedIndexKey (index key : String)
  | duplicatesUnderIndex (index : String)
deriving DecidableEq

/-- Why an expression has no meaning. -/
inductive ExpressionFault where
  | divisionByZero
  | overflow
  | columnOperand (operation column : String)
  | negatedLeaf (leaf : String)
  | columnsOfTwoTables (left right : String)
  | unjoinedTable (left right target : String)
  | starNotSupported (function : String)
  | notValidated (aggregate : String)
  | mixedSelection
deriving DecidableEq

/-- Why a tree is no condition. -/
inductive TreeFault where
  | leafUnderConnective (tree : String)
  | treeUnderComparison (tree : String)
  | loneOperand (tree : String)
  | misplaced (tree : String)
deriving DecidableEq

inductive Error where
  | io
  | serialization
  | table (fault : TableFault)
  | constraint (fault : ConstraintFault)
  | syntaxError (fault : SyntaxFault)
  | ambiguousColumn (column : String)
  | unknownColumn (column : String)
  | expression (fault : ExpressionFault)
  | operator (text : String)
  | typeMismatch (left right : String)
  | unsupportedType (function column type : String)
  | tree (fault : TreeFault)
  | noDatabase
  | unmatchedStatement (keyword : String) (line : Nat)
deriving DecidableEq

/-- How work ends that has no result: with an error to report, or because a stored row lacks a cell
that it has to have. The second ends the program. -/
inductive Failure where
  | error (e : Error)
  | missingCell (column : String)
deriving DecidableEq

/-- Work that can end with an error only. -/
def Failure.lift {α : Type} : Except Error α → Except Failure α
  | .ok a => .ok a
  | .error e => .error (.error e)

/-- How errors are worded. -/
inductive ErrorMode where
  | brief
  | detailed
deriving DecidableEq

namespace SyntaxFault

/-- What was found in place of something else. -/
def found : Option Token → String
  | some token => "实际 " ++ token.shown
  | none => "但已到结尾"

def message : SyntaxFault → String
  | unknownCharacter c => "未知字符: " ++ c.toString
  | unclosedText => "字符串缺少结束引号"
  | emptyCondition => "WHERE子句为空"
  | expectedComma token => "期望逗号, " ++ found (some token)
  | expectedComparison token => "期望比较操作符, " ++ found token
  | expectedOperand token => "期望表达式, " ++ found token
  | expectedToken expected token => "期望 " ++ expected.shown ++ ", " ++ found token
  | leftover token => "多余的内容: " ++ token.shown
  | unreadableValue text => "无法解析的值: " ++ text
  | unreadableJoin text => "无法解析的JOIN子句: " ++ text
  | unreadableTable text => "无法解析的表名: " ++ text
  | reservedAlias nickname => "别名不能是关键字: " ++ nickname
  | badSelectList text => "非法的选择列表: " ++ text
  | valueCount expected actual =>
    "每行值的数量必须与列数一致: 期望 " ++ toString expected ++ ", 实际 " ++ toString actual
  | unopenedGroup => "括号不匹配"
  | strayCharacter c => "括号外出现多余字符: " ++ c.toString
  | unclosedGroup => "括号或引号不匹配"
  | missingValues => "INSERT 缺少 VALUES"
  | missingIndexColumns index => "索引 " ++ index ++ " 缺少列名"
  | expectedColumn => "期望列定义"
  | missingKeyColumns field => "约束缺少列名: " ++ field
  | severalPrimaryKeys => "表中只能有一个主键"
  | repeatedColumn column => "列 " ++ column ++ " 重复定义"
  | unreadableColumn field => "无法解析的列定义: " ++ field
  | expectedLength => "期望VARCHAR长度"
  | unknownType type => "未知数据类型: " ++ type
  | unknownConstraint word => "未知的列约束: " ++ word

end SyntaxFault

def TableFault.message : TableFault → String
  | databaseExists database => "数据库 " ++ database ++ " 已存在"
  | databaseMissing database => "数据库 " ++ database ++ " 不存在"
  | tableExists table => "表 " ++ table ++ " 已存在"
  | tableMissing table => "表 " ++ table ++ " 不存在"
  | noPrimaryKey table => "表 " ++ table ++ " 必须定义主键"
  | indexExists index => "索引 " ++ index ++ " 已存在"
  | indexMissing index => "索引 " ++ index ++ " 不存在"
  | keyPosition position => "主键位置 " ++ toString position ++ " 超出范围"
  | nameTaken name => "表名或别名 " ++ name ++ " 重复"
  | notInQuery name => "表 " ++ name ++ " 不在查询中"

def ConstraintFault.message : ConstraintFault → String
  | textTooLong column limit length =>
    "列 " ++ column ++ " 字符串长度超出限制: 最大长度 " ++ toString limit ++ ", 实际长度 " ++ toString length
  | nullNotAllowed column => "非空字段 " ++ column ++ " 不能为null"
  | repeatedKey table key => "表 " ++ table ++ " 主键 " ++ key ++ " 重复"
  | repeatedValue column value => "列 " ++ column ++ " 的值 " ++ value ++ " 重复"
  | repeatedIndexKey index key => "唯一索引 " ++ index ++ " 的键 " ++ key ++ " 重复"
  | duplicatesUnderIndex index => "无法创建唯一索引 " ++ index ++ ": 存在重复值"

def ExpressionFault.message : ExpressionFault → String
  | divisionByZero => "除数不能为0"
  | overflow => "整数溢出"
  | columnOperand operation column => operation ++ " 不支持作用于列 " ++ column
  | negatedLeaf leaf => "NOT 不能作用于 " ++ leaf
  | columnsOfTwoTables left right =>
    "WHERE 中不能比较不同表的列 " ++ left ++ " 和 " ++ right ++ "，请使用 JOIN"
  | unjoinedTable left right target =>
    "连接条件 " ++ left ++ " = " ++ right ++ " 必须连接 " ++ target ++ " 与之前的表"
  | starNotSupported function => function ++ "(*) 不受支持"
  | notValidated aggregate => aggregate ++ " 尚未校验"
  | mixedSelection => "聚合函数不能与普通列同时选择"

def TreeFault.message : TreeFault → String
  | leafUnderConnective tree => "逻辑节点的子节点不能是叶子: " ++ tree
  | treeUnderComparison tree => "比较节点的子节点必须是列或值: " ++ tree
  | loneOperand tree => "表达式不能只有一个操作数: " ++ tree
  | misplaced tree => tree

namespace Error

/-- The error in full. -/
def detailed : Error → String
  | io => "IO错误"
  | serialization => "序列化错误"
  | table fault => "表错误: " ++ fault.message
  | constraint fault => "约束冲突: " ++ fault.message
  | syntaxError fault => "SQL语法错误: " ++ fault.message
  | ambiguousColumn column => "列名 " ++ column ++ " 不明确"
  | unknownColumn column => "列 " ++ column ++ " 不存在"
  | expression fault => "非法表达式: " ++ fault.message
  | operator text => "非法操作符: " ++ text
  | typeMismatch left right => "类型不匹配: " ++ left ++ " 与 " ++ right ++ " 无法比较"
  | unsupportedType function column type =>
    "聚合函数 " ++ function ++ " 不支持列 " ++ column ++ " 的类型 " ++ type
  | tree fault => "非法表达式树: " ++ fault.message
  | noDatabase => "当前会话未选择数据库"
  | unmatchedStatement keyword line =>
    "无法识别的关键字 " ++ keyword ++ " (第 " ++ toString line ++ " 行)"

/-- The error in a few words. -/
def brief : Error → String
  | io => "Error: IO error"
  | serialization => "Error: Serialization error"
  | table fault => "Error: " ++ fault.message
  | constraint fault => "Error: " ++ fault.message
  | syntaxError _ => "Error: Syntax error"
  | ambiguousColumn column => "Error: Ambiguous column '" ++ column ++ "'"
  | unknownColumn column => "Error: Unknown column '" ++ column ++ "'"
  | expression _ => "Error: Invalid expression"
  | operator text => "Error: Invalid operator '" ++ text ++ "'"
  | typeMismatch _ _ => "Error: Type mismatch"
  | unsupportedType function column _ =>
    "Error: " ++ function ++ " is not supported on column '" ++ column ++ "'"
  | tree _ => "Error: Invalid tree node type"
  | noDatabase => "Error: No database in use"
  | unmatchedStatement keyword line =>
    "Error: Invalid keyword '" ++ keyword ++ "' at line " ++ toString line

/-- The error as a mode words it. -/
def message (mode : ErrorMode) (e : Error) : String :=
  match mode with
  | .brief => e.brief
  | .detailed => e.detailed

end Error

end Relational
