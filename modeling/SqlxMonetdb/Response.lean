import SqlxMonetdb.DriverError

set_option autoImplicit false

/-!
# Query requests and responses

The simple query protocol: the request text, and the parser of the line-oriented
response. A response is read line by line into two slots, an open result table and
the last update, schema or transaction result.
-/
namespace SqlxMonetdb.Response
open ListSplitting TextPrimitives DriverError

def encodeQuery (sql : Text) : List UInt8 := [0x73] ++ utf8Encode sql ++ [0x0A, 0x3B]

structure ColumnMeta where
  name : Text
  typeName : Text
  length : Option UInt64
  typesizes : Option (UInt64 × Option UInt64)
  deriving DecidableEq

/-- `ColumnMeta::default()`. -/
def ColumnMeta.fresh : ColumnMeta := ⟨[], [], none, none⟩

structure TableResult where
  queryId : Int64
  rowCount : UInt64
  declaredColumns : UInt64
  embeddedTuples : UInt64
  columns : List ColumnMeta
  rows : List (List (Option Text))
  deriving DecidableEq

inductive QueryResponse where
  | table (result : TableResult)
  | update (affected : UInt64) (lastInsertId : Option Int64)
  | schema
  | transaction (autoCommit : Bool)
  | ok
  deriving DecidableEq

def parsed {α : Type} (value : Option α) (message : Message) : Except MonetError α :=
  match value with
  | some v => .ok v
  | none => .error (.protocol message)

def parseField {α : Type} (parse : Text → Option α) (s : Text) (field : String) :
    Except MonetError α :=
  parsed (parse s) [.text "invalid ", .text field, .text " in '&1'/'&5' line: ", .debug s]

def parseTableHeader (rest : Text) : Except MonetError TableResult :=
  match splitWhitespace rest with
  | queryId :: rowCount :: columns :: tuples :: _ => do
    let queryId ← parseField parseI64 queryId "query_id"
    let rowCount ← parseField parseU64 rowCount "rowcount"
    let declaredColumns ← parseField parseU64 columns "columns"
    let embeddedTuples ← parseField parseU64 tuples "tuples"
    .ok { queryId, rowCount, declaredColumns, embeddedTuples, columns := [], rows := [] }
  | parts => .error (.protocol [.text ("'&1'/'&5' line expects at least 4 fields " ++
      "(query_id rowcount columns tuples), got "), .debugList parts])

def parseUpdateLine (rest : Text) : Except MonetError QueryResponse :=
  match splitWhitespace rest with
  | [] => .error (.protocol [.text "'&2' line missing affected count: ", .debug rest])
  | affected :: parts => do
    let affected ← parsed (parseU64 affected) [.text "invalid affected count in: ", .debug rest]
    let lastInsertId ← match parts.head? with
      | none => .ok none
      | some s =>
        if s = "-1".toList then .ok none
        else (parsed (parseI64 s) [.text "invalid identity value: ", .debug s]).map some
    .ok (.update affected lastInsertId)

/-- The fourth character of a `&4` line is the autocommit flag. -/
def parseTransactionLine (line : Text) : Except MonetError QueryResponse :=
  match (line.drop 3).head? with
  | none => .error (.protocol
      [.text "'&4' line too short to contain autocommit flag: ", .debug line])
  | some flag =>
    if flag = 't' then .ok (.transaction true)
    else if flag = 'f' then .ok (.transaction false)
    else .error (.protocol [.text "unexpected autocommit flag ", .debugChar flag,
      .text " in '&4' line: ", .debug line])

def parseHeaderValues (rest : Text) : Except MonetError (Text × List Text) :=
  match rsplitOnce '#' rest with
  | none => .error (.protocol [.text "'%' line missing '#identity' suffix: ", .debug rest])
  | some (values, identity) => .ok (trim identity, ((trim values).splitOn ',').map trim)

def parseTypesizesValue (value : Text) : Except MonetError (Option (UInt64 × Option UInt64)) :=
  let value := trim value
  if value = [] then .ok none
  else
    match splitWhitespace value with
    | [] => .error (.protocol [.text "empty typesizes value: ", .debug value])
    | first :: parts => do
      let first ← parsed (parseU64 first) [.text "invalid typesizes value: ", .debug value]
      let second ← match parts.head? with
        | none => .ok none
        | some s => (parsed (parseU64 s) [.text "invalid typesizes value: ", .debug value]).map some
      .ok (some (first, second))

def parseLengthValue (value : Text) : Except MonetError (Option UInt64) :=
  let value := trim value
  if value = [] then .ok none else (parseField parseU64 value "length").map some

def zipColumns (assign : ColumnMeta → Text → Except MonetError ColumnMeta) :
    List ColumnMeta → List Text → Except MonetError (List ColumnMeta)
  | col :: cols, value :: values => do
    let col ← assign col value
    let cols ← zipColumns assign cols values
    .ok (col :: cols)
  | cols, _ => .ok cols

def resizeColumns (columns : List ColumnMeta) (len : ℕ) : List ColumnMeta :=
  if columns.length < len then columns ++ List.replicate (len - columns.length) ColumnMeta.fresh
  else columns

/-- What a header of each identity writes into a column; `none` for an unknown one. -/
def headerAssignment (identity : Text) :
    Option (ColumnMeta → Text → Except MonetError ColumnMeta) :=
  if identity = "name".toList then some fun col value => .ok { col with name := value }
  else if identity = "type".toList then some fun col value => .ok { col with typeName := value }
  else if identity = "typesizes".toList then some fun col value =>
    (parseTypesizesValue value).map fun typesizes => { col with typesizes }
  else if identity = "length".toList then some fun col value =>
    (parseLengthValue value).map fun length => { col with length }
  else if identity = "table_name".toList then some fun col _ => .ok col
  else none

def applyHeaderValues (table : TableResult) (identity : Text) (values : List Text) :
    Except MonetError TableResult :=
  let columns := resizeColumns table.columns values.length
  match headerAssignment identity with
  | some assign => (zipColumns assign columns values).map fun columns => { table with columns }
  | none => .error (.protocol [.text "unknown header identity ", .debug identity])

def escaped (c : Char) : Text :=
  if c = 'n' then ['\n']
  else if c = 't' then ['\t']
  else if c = 'r' then ['\r']
  else if c = '\\' then ['\\']
  else if c = '\'' ∨ c = '"' then [c]
  else ['\\', c]

/-- The loop over the characters between the quotes. -/
def unescape : Text → Text
  | [] => []
  | [c] => [c]
  | c :: d :: cs => if c = '\\' then escaped d ++ unescape cs else c :: unescape (d :: cs)

def unescapeField (field : Text) : Except MonetError (Option Text) :=
  if field = "NULL".toList then .ok none
  else
    match field with
    | [] => .ok (some field)
    | quote :: _ =>
      if quote = '\'' ∨ quote = '"' then
        match ([quote].isPrefixOf? field).bind fun s => [quote].isSuffixOf? s with
        | none => .ok (some field)
        | some quoted => .ok (some (unescape quoted))
      else .ok (some field)

def parseTupleFields (rest : Text) : Except MonetError (List (Option Text)) :=
  match [']'].isSuffixOf? rest with
  | none => .error (.protocol [.text "tuple line missing ']': ", .debug rest])
  | some inner =>
    let inner := trim inner
    if inner = [] then .ok []
    else (splitOnSeq ",\t".toList inner).mapM fun field => unescapeField (trim field)

/-- The tests `parseResponse` makes on a line, in their order, with what each
prefix leaves of the line. -/
inductive LineKind where
  | blank
  | error (message : Text)
  | info
  | table (rest : Text)
  | update (rest : Text)
  | schema
  | transaction
  | header (rest : Text)
  | tuple (rest : Text)
  | unrecognized
  deriving DecidableEq

def lineKind (line : Text) : LineKind :=
  if line = [] ∨ line = "=OK".toList then .blank
  else if let some message := "!".toList.isPrefixOf? line then .error message
  else if "#".toList.isPrefixOf line then .info
  else if let some rest := ("&1".toList.isPrefixOf? line).or ("&5".toList.isPrefixOf? line) then
    .table rest
  else if let some rest := "&2".toList.isPrefixOf? line then .update rest
  else if "&3".toList.isPrefixOf line then .schema
  else if "&4".toList.isPrefixOf line then .transaction
  else if let some rest := "%".toList.isPrefixOf? line then .header rest
  else if let some rest := "[".toList.isPrefixOf? line then .tuple rest
  else .unrecognized

structure Slots where
  table : Option TableResult
  result : Option QueryResponse
  deriving DecidableEq

def openTable (slots : Slots) (what : String) (line : Text) : Except ResponseError TableResult :=
  match slots.table with
  | some table => .ok table
  | none => .error (.protocol (.protocol [.text what, .debug line]))

def parseLine (slots : Slots) (line : Text) : Except ResponseError Slots :=
  match lineKind line with
  | .blank => .ok slots
  | .error message => .error (.database ⟨message⟩)
  | .info => .ok slots
  | .table rest => do
    let table ← (parseTableHeader rest).mapError .protocol
    .ok { slots with table := some table }
  | .update rest => do
    let result ← (parseUpdateLine rest).mapError .protocol
    .ok { slots with result := some result }
  | .schema => .ok { slots with result := some .schema }
  | .transaction => do
    let result ← (parseTransactionLine line).mapError .protocol
    .ok { slots with result := some result }
  | .header rest => do
    let (identity, values) ← (parseHeaderValues rest).mapError .protocol
    let table ← openTable slots "'%' line before '&1': " line
    let table ← (applyHeaderValues table identity values).mapError .protocol
    .ok { slots with table := some table }
  | .tuple rest => do
    let fields ← (parseTupleFields rest).mapError .protocol
    let table ← openTable slots "'[' line before '&1': " line
    .ok { slots with table := some { table with rows := table.rows ++ [fields] } }
  | .unrecognized => .error (.protocol (.protocol
      [.text "unrecognized response line: ", .debug line]))

/-- The response the two slots stand for: an open table wins over a result. -/
def Slots.response (slots : Slots) : QueryResponse :=
  match slots.table with
  | some table => .table table
  | none => slots.result.getD .ok

def parseResponse (text : Text) : Except ResponseError QueryResponse := do
  let slots ← (text.splitOn '\n').foldlM parseLine ⟨none, none⟩
  .ok slots.response

end SqlxMonetdb.Response
