import DynamicSql.Row
import DynamicSql.Statement.Read
import DynamicSql.Statement.Template
import DynamicSql.Statement.Write

/-!
# Exchanges with a database

What is asked of a database, and what is made of its replies, is described as an exchange: it is
done, or it asks one question and goes on with the reply. An exchange is run against replies that
depend on the question alone.
-/

namespace DynamicSql

/-- A question to a database. -/
inductive Request where
  /-- The single number that a statement yields. -/
  | count (statement : Statement)
  /-- The rows that a statement yields. -/
  | fetch (statement : Statement)
  /-- The number of rows that a statement changes. -/
  | execute (statement : Statement)

/-- What a question is replied with. -/
abbrev Request.Reply : Request → Type
  | .count _ | .execute _ => UInt64
  | .fetch _ => List Row

/-- A sequence of questions, each of which may depend on the replies before it. -/
inductive Exchange (α : Type) where
  | done (result : Except Error α)
  | ask (request : Request) (next : request.Reply → Exchange α)

/-- A database, as its replies. -/
abbrev Database : Type := (request : Request) → Except Error request.Reply

namespace Exchange

variable {α β : Type}

/-- Hold an exchange with a database: the questions that were asked, and the result. An error in
reply ends the exchange. -/
def run (db : Database) : Exchange α → List Request × Except Error α
  | .done result => ([], result)
  | .ask request next =>
    match db request with
    | .error e => ([request], .error e)
    | .ok reply =>
      let (asked, result) := run db (next reply)
      (request :: asked, result)

/-- Go on with a result that may be an error. -/
def ofExcept (x : Except Error β) (next : β → Exchange α) : Exchange α :=
  match x with
  | .ok b => next b
  | .error e => .done (.error e)

/-- Change the result. -/
def map (f : α → β) : Exchange α → Exchange β
  | .done result => .done (result.map f)
  | .ask request next => .ask request fun reply => map f (next reply)

/-- Ask for a number of rows. -/
def count (s : Statement) (next : UInt64 → Exchange α) : Exchange α := .ask (.count s) next

/-- Ask for rows. -/
def fetch (s : Statement) (next : List Row → Exchange α) : Exchange α := .ask (.fetch s) next

/-- Ask for a change. -/
def execute (s : Statement) (next : UInt64 → Exchange α) : Exchange α := .ask (.execute s) next

end Exchange

/-- A page of a result, and the number of rows on all pages. -/
structure Page where
  total : UInt64
  rows : List Row

/-- The document of a page. -/
def Page.toJson (p : Page) : Json :=
  .object [("total", .integer p.total.toNat), ("list", .array (p.rows.map Row.toJson))]

/-- Count first, and read the page only if there are rows. -/
def readCounted (count : Statement) (pageSql : Except Error String) : Exchange Page :=
  .count count fun total =>
    if total = 0 then .done (.ok ⟨0, []⟩)
    else
      .ofExcept pageSql fun sql =>
        .fetch ⟨sql, count.params⟩ fun rows => .done (.ok ⟨total, rows⟩)

/-- Read a page by statements written by hand. -/
def readPageSql (d : Dialect) (sql countSql : String) (params : Params) (number size : UInt64) :
    Exchange Page :=
  .ofExcept (pageOffset number size) fun _ =>
    readCounted ⟨countSql, params⟩ (d.pageClause sql number size)

namespace Compiler

/-- Read a page of a query over a table. -/
def readPage (c : Compiler) (q : Query) (table : String) (number size : UInt64) : Exchange Page :=
  .ofExcept (pageOffset number size) fun _ =>
    .ofExcept (c.page q table) fun paged =>
      readCounted ⟨paged.countSql, paged.params⟩ (paged.pageSql number size)

/-- Whether a query over a table has rows. -/
def anyRow (c : Compiler) (q : Query) (table : String) : Exchange Bool :=
  .ofExcept (c.validate q table) fun statement =>
    .count statement fun n => .done (.ok (0 < n))

/-- Read the rows of a query over a table. -/
def readRows (c : Compiler) (q : Query) (table : String) : Exchange (List Row) :=
  .ofExcept (c.select q table) fun statement => .fetch statement fun rows => .done (.ok rows)

/-- Read the first row of a query over a table. -/
def readFirst (c : Compiler) (q : Query) (table : String) : Exchange (Option Row) :=
  .ofExcept (c.findOne q table) fun statement => .fetch statement fun rows => .done (.ok rows.head?)

/-- Read the row with an `id`. -/
def readById (c : Compiler) (table : String) (id : Value) : Exchange (Option Row) :=
  .ofExcept (c.schema.table table) fun description =>
    .fetch (selectById c.root table description id) fun rows => .done (.ok rows.head?)

/-- Delete the row with an `id`. -/
def removeById (c : Compiler) (table : String) (id : Value) : Exchange UInt64 :=
  .ofExcept (c.schema.table table) fun _ =>
    .execute (deleteById c.root table id) fun n => .done (.ok n)

end Compiler

/-- Run a writing statement. -/
def Statement.execute (s : Statement) : Exchange UInt64 :=
  .execute s fun n => .done (.ok n)

end DynamicSql
