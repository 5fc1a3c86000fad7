import DynamicSql.Exchange
import DynamicSql.Proofs.Dialect.Windows
import DynamicSql.Proofs.Statement.Paging
import DynamicSql.Proofs.Statement.Success

/-!
# What is asked of a database

An exchange is held with a database that may change from one question to the next. An error in reply
is the last thing that is heard (`Exchange.ends_at_error`). Nothing is asked for a page that does
not exist, for a table that is not known or for a query that is refused; a page is counted first and
read only if it can have rows; everything else asks one question (`Compiler.asks_in_order`).
-/

namespace DynamicSql

namespace Exchange

variable {α β : Type}

/-- Hold an exchange with a database whose replies depend on what it was asked before. -/
def hold (db : List Request → Database) (past : List Request) :
    Exchange α → List Request × Except Error α
  | .done result => ([], result)
  | .ask request next =>
    match db past request with
    | .error e => ([request], .error e)
    | .ok reply =>
      let (asked, result) := hold db (past ++ [request]) (next reply)
      (request :: asked, result)

section Steps

variable {db : List Request → Database} {past : List Request}

/-- A finished exchange asks nothing more. -/
@[simp] theorem hold_done (result : Except Error α) :
    (done result).hold db past = ([], result) := rfl

/-- A request that the database refuses is the last one. -/
theorem hold_ask_error {request : Request} {next : request.Reply → Exchange α} {e : Error}
    (h : db past request = .error e) : (ask request next).hold db past = ([request], .error e) := by
  rw [hold, h]

/-- Behind a reply, the exchange goes on with what the reply is. -/
theorem hold_ask_ok {request : Request} {next : request.Reply → Exchange α} {reply : request.Reply}
    (h : db past request = .ok reply) :
    (ask request next).hold db past =
      (request :: ((next reply).hold db (past ++ [request])).1,
        ((next reply).hold db (past ++ [request])).2) := by
  rw [hold, h]

/-- A question behind which the exchange is done. -/
theorem hold_ask_done (request : Request) (result : request.Reply → α) :
    (ask request fun reply => done (.ok (result reply))).hold db past =
      ([request], (db past request).map result) := by
  cases h : db past request with
  | error e => exact hold_ask_error h
  | ok reply => exact hold_ask_ok h

end Steps

/-- A database that never changes is one whose replies do not depend on the past. -/
theorem run_eq_hold (db : Database) (x : Exchange α) (past : List Request) :
    x.run db = x.hold (fun _ => db) past := by
  induction x generalizing past with
  | done result => rfl
  | ask request next ih =>
    rw [run, hold]
    cases db request with
    | error e => rfl
    | ok reply =>
      simp only
      rw [ih reply (past ++ [request])]

/-- An error in reply ends an exchange: nothing is asked behind it, and it is the result. -/
theorem ends_at_error (x : Exchange α) {db : List Request → Database}
    {past before after : List Request} {request : Request} {result : Except Error α} {e : Error}
    (hasked : x.hold db past = (before ++ request :: after, result))
    (herror : db (past ++ before) request = .error e) : after = [] ∧ result = .error e := by
  -- The request that fails is the first one, or the exchange goes on to it behind a reply. What was
  -- asked before moves on with the exchange.
  induction x generalizing past before with
  | done last =>
    obtain ⟨hnil, -⟩ := Prod.mk.inj hasked
    exact absurd hnil.symm (List.append_ne_nil_of_right_ne_nil _ (List.cons_ne_nil _ _))
  | ask first next ih =>
    cases hreply : db past first with
    | error e' =>
      rw [hold_ask_error hreply] at hasked
      obtain ⟨hlist, rfl⟩ := Prod.mk.inj hasked
      cases before with
      | nil =>
        obtain ⟨rfl, rfl⟩ := List.cons.inj hlist
        rw [List.append_nil, hreply] at herror
        exact ⟨rfl, congrArg Except.error (Except.error.inj herror)⟩
      | cons b before =>
        have htail := (List.cons.inj hlist).2
        exact absurd htail.symm (List.append_ne_nil_of_right_ne_nil _ (List.cons_ne_nil _ _))
    | ok reply =>
      rw [hold_ask_ok hreply] at hasked
      obtain ⟨hlist, hresult⟩ := Prod.mk.inj hasked
      cases before with
      | nil =>
        obtain ⟨rfl, -⟩ := List.cons.inj hlist
        rw [List.append_nil, hreply] at herror
        cases herror
      | cons b before =>
        obtain ⟨rfl, htail⟩ := List.cons.inj hlist
        exact ih reply (Prod.ext htail hresult) (by rwa [List.append_assoc, List.singleton_append])

/-- Nothing is asked, and the result is an error. -/
def Silent (x : Exchange α) (e : Error) : Prop := ∀ db, x.hold db [] = ([], .error e)

/-- One question is asked. The result follows from the reply, and an error in reply is the
result. -/
def AsksOnce (x : Exchange α) (request : Request) (result : request.Reply → α) : Prop :=
  ∀ db, x.hold db [] = ([request], (db [] request).map result)

/-- One question is asked about a statement, or nothing if there is no statement. -/
def AsksAbout (x : Exchange α) (statement : Except Error Statement)
    (request : Statement → Request) (result : ∀ s, (request s).Reply → α) : Prop :=
  (∀ e, statement = .error e → x.Silent e) ∧
    ∀ s, statement = .ok s → x.AsksOnce (request s) (result s)

/-- The rows of a page are counted by a statement first. They are read, by another text with the
same values, only if there are any. -/
structure Pages (x : Exchange Page) (counting : Statement) (sql : String) : Prop where
  failed : ∀ db e, db [] (.count counting) = .error e →
    x.hold db [] = ([.count counting], .error e)
  empty : ∀ db, db [] (.count counting) = .ok 0 →
    x.hold db [] = ([.count counting], .ok ⟨0, []⟩)
  read : ∀ db total, db [] (.count counting) = .ok total → total ≠ 0 →
    x.hold db [] = ([.count counting, .fetch ⟨sql, counting.params⟩],
      (db [.count counting] (.fetch ⟨sql, counting.params⟩)).map fun rows => ⟨total, rows⟩)

/-- Where something failed in advance, nothing is asked. -/
theorem silent_ofExcept {x : Except Error β} {e : Error} (h : x = .error e)
    (next : β → Exchange α) : (ofExcept x next).Silent e := by
  intro db
  rw [h]
  rfl

/-- What is made of a result in advance may be made behind it. -/
theorem ofExcept_map {γ : Type} (f : γ → β) (x : Except Error γ) (next : β → Exchange α) :
    ofExcept (x.map f) next = ofExcept x fun a => next (f a) := by
  cases x <;> rfl

/-- What asks one question about each statement asks one about a statement that may be missing. -/
theorem asksAbout_ofExcept {x : Except Error Statement} {next : Statement → Exchange α}
    {request : Statement → Request} {result : ∀ s, (request s).Reply → α}
    (h : ∀ s, (next s).AsksOnce (request s) (result s)) :
    (ofExcept x next).AsksAbout x request result := by
  refine ⟨fun e hx => silent_ofExcept hx next, fun s hx => ?_⟩
  rw [hx]
  exact h s

/-- A counted page is read by the text that is given for it. -/
theorem pages_readCounted {counting : Statement} {pageSql : Except Error String} {sql : String}
    (h : pageSql = .ok sql) : (readCounted counting pageSql).Pages counting sql := by
  subst h
  refine ⟨fun db e hcount => hold_ask_error hcount, fun db hcount => hold_ask_ok hcount,
    fun db total hcount htotal => ?_⟩
  have hread : (ask (.fetch ⟨sql, counting.params⟩)
      fun rows => done (.ok (Page.mk total rows))).hold db [.count counting] =
        ([.fetch ⟨sql, counting.params⟩], _) :=
    hold_ask_done (.fetch ⟨sql, counting.params⟩) fun rows => Page.mk total rows
  rw [readCounted, count, hold_ask_ok hcount, if_neg htotal]
  change (_ :: (hold _ _ (ask _ _)).1, (hold _ _ (ask _ _)).2) = _
  rw [List.nil_append, hread]

end Exchange

namespace Context

variable {ctx : Context} {table : String} {e : Error}

/-- A query over a table that is not known is not resolved. -/
theorem selectParts_of_unknown (h : ctx.schema.table table = .error e) (q : Query) (path : Path)
    (extent : Extent) : (ctx.selectParts table path extent q).run = .error e := by
  obtain ⟨own, token, clauses, conditions, joins, unions⟩ := q
  have hscope : (ctx.openScope token table).run = .error e := by
    rw [openScope, h]
    rfl
  rw [selectParts, Resolve.run_bind, hscope]

/-- A query over a table that the schema does not have is refused for that table. -/
theorem shownParts_of_unknown (h : ctx.schema.table table = .error e) (q : Query) (path : Path) :
    (ctx.shownParts table path q).run = .error e := by
  rw [shownParts, Resolve.run_bind, selectParts_of_unknown h]

/-- So is such a query with its unions. -/
theorem compoundSelect_of_unknown (h : ctx.schema.table table = .error e) (q : Query)
    (path : Path) : (ctx.compoundSelect table path q).run = .error e := by
  rw [compoundSelect, Resolve.run_bind, shownParts_of_unknown h]

end Context

namespace Compiler

open Exchange hiding ofExcept

section UnknownTables

variable {c : Compiler} {q : Query} {table : String} {e : Error}

/-- A query over a table that is not known, whose tables have tokens of their own, is refused for
this table. -/
theorem page_of_unknown (h : c.schema.table table = .error e) (htokens : q.tokens.Nodup) :
    c.page q table = .error e := by
  have hctx : c.queryContext q table = .ok (c.contextOf q table) :=
    queryContext_eq_ok.mpr ⟨htokens, rfl⟩
  have hschema : (c.contextOf q table).schema.table table = .error e := h
  have hdrafts : c.pageDrafts q table = .error e := by
    unfold pageDrafts
    simp only [hctx, bind, Except.bind, Context.shownParts_of_unknown hschema,
      Context.compoundSelect_of_unknown hschema, ite_self]
  rw [page, hdrafts]
  rfl

/-- A query whose table is unknown fails to be validated for that table alone. -/
theorem validate_of_unknown (h : c.schema.table table = .error e) (htokens : q.tokens.Nodup) :
    c.validate q table = .error e := by
  have hctx : c.queryContext q table = .ok (c.contextOf q table) :=
    queryContext_eq_ok.mpr ⟨htokens, rfl⟩
  have hschema : (c.contextOf q table).schema.table table = .error e := h
  have hdraft : c.validateDraft q table = .error e := by
    unfold validateDraft
    simp only [hctx, bind, Except.bind, Context.selectParts_of_unknown hschema,
      Context.compoundSelect_of_unknown hschema, ite_self]
  rw [validate, hdraft]
  rfl

/-- The schema refuses a table with one error only. -/
theorem unknownTable_of_eq_error {schema : Schema} (h : schema.table table = .error e) :
    e = .unknownTable table := by
  unfold Schema.table at h
  split at h
  · cases h
  · exact (Except.error.inj h).symm

end UnknownTables

/-- Whatever the database replies: no page is read and nothing is asked where the number of the page
or its size is zero, even for a query that would be refused. A page of a query that is compiled, or
of statements written by hand, is counted and then read at most once. Every other exchange asks one
question, or none if there is no statement. A table that is not known is such an error, and an error
in reply is the last thing that is heard. -/
theorem asks_in_order (c : Compiler) (q : Query) (table : String) (id : Value) (d : Dialect)
    (sql countSql : String) (params : Params) (number size : UInt64) (s : Statement) :
    (number = 0 ∨ size = 0 →
      (c.readPage q table number size).Silent (.invalidPage number size) ∧
      (readPageSql d sql countSql params number size).Silent (.invalidPage number size)) ∧
    (number ≠ 0 → size ≠ 0 →
      (∀ e, c.page q table = .error e → (c.readPage q table number size).Silent e) ∧
      (∀ p, c.page q table = .ok p → (c.readPage q table number size).Pages
        ⟨p.countSql, p.params⟩ (p.baseSql ++ c.dialect.window number size)) ∧
      (readPageSql d sql countSql params number size).Pages ⟨countSql, params⟩
        (sql ++ d.window number size)) ∧
    (c.anyRow q table).AsksAbout (c.validate q table) .count (fun _ n => 0 < n) ∧
    (c.readRows q table).AsksAbout (c.select q table) .fetch (fun _ rows => rows) ∧
    (c.readFirst q table).AsksAbout (c.findOne q table) .fetch (fun _ rows => rows.head?) ∧
    (c.readById table id).AsksAbout
      ((c.schema.table table).map fun description => selectById c.root table description id)
      .fetch (fun _ rows => rows.head?) ∧
    (c.removeById table id).AsksAbout
      ((c.schema.table table).map fun _ => deleteById c.root table id) .execute (fun _ n => n) ∧
    s.execute.AsksOnce (.execute s) (fun n => n) ∧
    (∀ e, c.schema.table table = .error e → e = .unknownTable table ∧ (q.tokens.Nodup →
      c.page q table = .error e ∧ c.validate q table = .error e ∧ c.select q table = .error e ∧
        c.findOne q table = .error e)) ∧
    ∀ {α : Type} (x : Exchange α) db before request after result e,
      x.hold db [] = (before ++ request :: after, result) → db before request = .error e →
        after = [] ∧ result = .error e := by
  refine ⟨?zero, ?positive, ?_, ?_, ?_, ?_, ?_, ?_, ?unknown, ?_⟩
  case zero =>
    intro hzero
    exact ⟨silent_ofExcept (pageOffset_of_zero hzero) _,
      silent_ofExcept (pageOffset_of_zero hzero) _⟩
  case positive =>
    intro hnumber hsize
    have hoffset := pageOffset_of_ne_zero hnumber hsize
    have hpage : c.readPage q table number size = .ofExcept (c.page q table) fun paged =>
        readCounted ⟨paged.countSql, paged.params⟩ (paged.pageSql number size) := by
      rw [readPage, hoffset, Exchange.ofExcept]
    refine ⟨fun e h => hpage ▸ silent_ofExcept h _, fun p h => ?_, ?_⟩
    · obtain ⟨_, _, -, hp, -⟩ := page_eq_ok h
      have hdialect : p.dialect = c.dialect := congrArg PagedStatement.dialect hp
      rw [hpage, h, Exchange.ofExcept, ← hdialect]
      exact pages_readCounted (pageClause_of_ne_zero p.dialect p.baseSql hnumber hsize)
    · rw [readPageSql, hoffset, Exchange.ofExcept]
      exact pages_readCounted (pageClause_of_ne_zero d sql hnumber hsize)
  case unknown =>
    intro e h
    refine ⟨unknownTable_of_eq_error h, fun htokens => ?_⟩
    have hpage := page_of_unknown h htokens
    refine ⟨hpage, validate_of_unknown h htokens, ?_, ?_⟩
    · rw [select_eq_page, hpage]
      rfl
    · rw [findOne_eq_page, hpage]
      rfl
  · exact asksAbout_ofExcept fun s db => hold_ask_done (.count s) fun n => decide (0 < n)
  · exact asksAbout_ofExcept fun s db => hold_ask_done (.fetch s) fun rows => rows
  · exact asksAbout_ofExcept fun s db => hold_ask_done (.fetch s) fun rows => rows.head?
  · have hread : c.readById table id = .ofExcept
        ((c.schema.table table).map fun description => selectById c.root table description id)
        fun s => fetch s fun rows => done (.ok rows.head?) := by
      rw [ofExcept_map]
      rfl
    rw [hread]
    exact asksAbout_ofExcept fun s db => hold_ask_done (.fetch s) fun rows => rows.head?
  · have hremove : c.removeById table id = .ofExcept
        ((c.schema.table table).map fun _ => deleteById c.root table id)
        fun s => execute s fun n => done (.ok n) := by
      rw [ofExcept_map]
      rfl
    rw [hremove]
    exact asksAbout_ofExcept fun s db => hold_ask_done (.execute s) fun n => n
  · exact fun db => hold_ask_done (.execute s) fun n => n
  · exact fun x db before request after result e hasked herror => x.ends_at_error hasked herror

/-- The second page of frequent customers is counted and read, there is no page before the first
one, and nobody is looked up in a table that is not known. -/
theorem frequentCustomers_asks_in_order :
    (∃ p, shop.page frequentCustomers "customer" = .ok p ∧
      (shop.readPage frequentCustomers "customer" 2 10).Pages ⟨p.countSql, p.params⟩
        (p.baseSql ++ " LIMIT 10,10")) ∧
    (shop.readPage frequentCustomers "customer" 0 10).Silent (.invalidPage 0 10) ∧
    (shop.readById "supplier" (.int 7)).Silent (.unknownTable "supplier") := by
  obtain ⟨hzero, -⟩ := asks_in_order shop frequentCustomers "customer" .null .mySql "" "" .empty 0
    10 ⟨"", .empty⟩
  obtain ⟨-, hpage, -⟩ := asks_in_order shop frequentCustomers "customer" .null .mySql "" "" .empty
    2 10 ⟨"", .empty⟩
  obtain ⟨-, -, -, -, -, hread, -⟩ := asks_in_order shop frequentCustomers "supplier" (.int 7)
    .mySql "" "" .empty 2 10 ⟨"", .empty⟩
  obtain ⟨p, hp⟩ : ∃ p, shop.page frequentCustomers "customer" = .ok p :=
    except_exists_ok (by decide +kernel)
  have hwindow : shop.dialect.window 2 10 = " LIMIT 10,10" := by decide +kernel
  have hpages := (hpage (by decide) (by decide)).2.1 p hp
  rw [hwindow] at hpages
  exact ⟨⟨p, hp, hpages⟩, (hzero (.inl rfl)).1, hread.1 _ rfl⟩

end Compiler

end DynamicSql
