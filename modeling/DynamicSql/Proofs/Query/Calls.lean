import DynamicSql.Query.TokenSource

/-!
# Calls that build a description

A description is built call by call. A call puts a condition, a group, a change, a condition on
groups, a join or a branch behind those that are there, or it changes something that holds neither
values nor queries. So a description is extended by every call (`QueryCall.apply_extends` and its
companions), and by every sequence of calls.
-/

namespace DynamicSql

/-- A call that adds to a group of conditions, whatever holds it. -/
inductive ConditionCall where
  | andWhere (field : String) (filter : Filter)
  | orWhere (field : String) (filter : Filter)
  | andGroup (group : ConditionGroup)
  | orGroup (group : ConditionGroup)
  | compare (comparison : Comparison) (field : String) (v : Value)
  | orCompare (comparison : Comparison) (field : String) (v : Value)
  | byId (v : Value)
  | compareField (field : String) (comparison : Comparison) (other : String)
  | compareDay (field : String) (comparison : Comparison) (bound : DateBound) (v : Value)
  | dateFrom (field : String) (v : Value)
  | dateUntil (field : String) (v : Value)
  | compareDate (field : String) (comparison : Comparison) (pattern : String) (v : Value)
  | like (wildcards : Wildcards) (field : String) (v : Value)
  | member (test : Membership) (field : String) (v : Value)
  | memberOf (test : Membership) (field : String) (query : Query)
  | isNull (field : String)
  | isNotNull (field : String)
  | guard (field : String) (check : Guard) (v : Value)

/-- Make a call on what holds a group of conditions. -/
def ConditionCall.apply {α : Type} [HasConditions α] : ConditionCall → α → α
  | andWhere field filter => HasConditions.andWhere field filter
  | orWhere field filter => HasConditions.orWhere field filter
  | andGroup group => HasConditions.andGroup group
  | orGroup group => HasConditions.orGroup group
  | compare comparison field v => HasConditions.compare comparison field v
  | orCompare comparison field v => HasConditions.orCompare comparison field v
  | byId v => HasConditions.byId v
  | compareField field comparison other => HasConditions.compareField field comparison other
  | compareDay field comparison bound v => HasConditions.compareDay field comparison bound v
  | dateFrom field v => HasConditions.dateFrom field v
  | dateUntil field v => HasConditions.dateUntil field v
  | compareDate field comparison pattern v => HasConditions.compareDate field comparison pattern v
  | like wildcards field v => HasConditions.like wildcards field v
  | member test field v => HasConditions.member test field v
  | memberOf test field query => HasConditions.memberOf test field query
  | isNull field => HasConditions.isNull field
  | isNotNull field => HasConditions.isNotNull field
  | guard field check v => HasConditions.guard field check v

/-- A call on a query. -/
inductive QueryCall where
  | condition (call : ConditionCall)
  | column (item : SelectItem)
  | select (field : String)
  | selectAs (field alias_ : String)
  | count (alias_ : String)
  | aggregate (kind : Aggregate) (field alias_ : String)
  | distinct (field : String)
  | remove (name : String)
  | selectNothing
  | groupBy (field : String) (pattern? : Option String)
  | having (item : HavingItem)
  | order (field : String) (direction : Direction) (operand : OrderOperand)
  | leftJoin (join : Join)
  | union (kind : UnionKind) (other : Query)
  | limit (rows : UInt64)
  | withToken (token : Token)
  | reissue (source : TokenSource)

/-- Make a call on a query. -/
def QueryCall.apply : QueryCall → Query → Query
  | condition call, q => call.apply q
  | column item, q => q.column item
  | select field, q => q.select field
  | selectAs field alias_, q => q.selectAs field alias_
  | count alias_, q => q.count alias_
  | aggregate kind field alias_, q => q.aggregate kind field alias_
  | distinct field, q => q.distinct field
  | remove name, q => q.remove name
  | selectNothing, q => q.selectNothing
  | groupBy field pattern?, q => q.groupBy field pattern?
  | having item, q => q.having item
  | order field direction operand, q => q.order field direction operand
  | leftJoin join, q => q.leftJoin join
  | union kind other, q => q.union kind other
  | limit rows, q => q.limit rows
  | withToken token, q => q.withToken token
  | reissue source, q => (source.reissue q).1

/-- A call on an update. -/
inductive UpdateCall where
  | condition (call : ConditionCall)
  | assign (change : Change) (field : String) (v : Value)
  | leftJoin (join : Join)
  | order (field : String) (direction : Direction)
  | limited (rows : UInt64)

/-- Make a call on an update. -/
def UpdateCall.apply : UpdateCall → Update → Update
  | condition call, u => call.apply u
  | assign change field v, u => u.assign change field v
  | leftJoin join, u => u.leftJoin join
  | order field direction, u => u.order field direction
  | limited rows, u => u.limited rows

/-- A call on a deletion. -/
inductive DeleteCall where
  | condition (call : ConditionCall)
  | limited (rows : UInt64)

/-- Make a call on a deletion. -/
def DeleteCall.apply : DeleteCall → Delete → Delete
  | condition call, d => call.apply d
  | limited rows, d => d.limited rows

/-- A group goes on where another one ends. -/
structure ConditionGroup.Extends (g g' : ConditionGroup) : Prop where
  conditions : g.conditions <+: g'.conditions
  groups : g.groups <+: g'.groups

/-- A query goes on where another one ends, in all that holds values or queries. -/
structure Query.Extends (q q' : Query) : Prop where
  conditions : q.conditions.Extends q'.conditions
  havings : q.clauses.havings <+: q'.clauses.havings
  joins : q.joins <+: q'.joins
  unions : q.unions <+: q'.unions

/-- An update goes on where another one ends, in all that holds values or queries. -/
structure Update.Extends (u u' : Update) : Prop where
  sets : u.sets <+: u'.sets
  joins : u.joins <+: u'.joins
  conditions : u.conditions.Extends u'.conditions

/-- A group extends itself. -/
@[refl] theorem ConditionGroup.Extends.refl (g : ConditionGroup) : g.Extends g :=
  ⟨List.prefix_rfl, List.prefix_rfl⟩

/-- What extends an extension of a group extends the group. -/
theorem ConditionGroup.Extends.trans {g₁ g₂ g₃ : ConditionGroup} (h : g₁.Extends g₂)
    (h' : g₂.Extends g₃) : g₁.Extends g₃ :=
  ⟨h.conditions.trans h'.conditions, h.groups.trans h'.groups⟩

/-- A query extends itself. -/
@[refl] theorem Query.Extends.refl (q : Query) : q.Extends q :=
  ⟨.refl _, List.prefix_rfl, List.prefix_rfl, List.prefix_rfl⟩

/-- What extends an extension of a query extends the query. -/
theorem Query.Extends.trans {q₁ q₂ q₃ : Query} (h : q₁.Extends q₂) (h' : q₂.Extends q₃) :
    q₁.Extends q₃ :=
  ⟨h.conditions.trans h'.conditions, h.havings.trans h'.havings, h.joins.trans h'.joins,
    h.unions.trans h'.unions⟩

/-- An update extends itself. -/
@[refl] theorem Update.Extends.refl (u : Update) : u.Extends u :=
  ⟨List.prefix_rfl, List.prefix_rfl, .refl _⟩

/-- What extends an extension of an update extends the update. -/
theorem Update.Extends.trans {u₁ u₂ u₃ : Update} (h : u₁.Extends u₂) (h' : u₂.Extends u₃) :
    u₁.Extends u₃ :=
  ⟨h.sets.trans h'.sets, h.joins.trans h'.joins, h.conditions.trans h'.conditions⟩

/-- A call reaches nothing but the conditions. -/
theorem ConditionCall.apply_eq_modify {α : Type} [HasConditions α] (call : ConditionCall) (a : α) :
    call.apply a = HasConditions.modify (call.apply (α := ConditionGroup)) a := by
  cases call <;> rfl

/-- Conditions and groups are added behind those that are there. -/
theorem ConditionCall.apply_extends (call : ConditionCall) (g : ConditionGroup) :
    g.Extends (call.apply g) := by
  have hadd : ∀ connector field filter, g.Extends (HasConditions.add connector field filter g) :=
    fun _ _ _ => ⟨List.prefix_append _ _, List.prefix_rfl⟩
  have haddGroup : ∀ connector group, g.Extends (HasConditions.addGroup connector group g) :=
    fun _ _ => ⟨List.prefix_rfl, List.prefix_append _ _⟩
  cases call with
  | andGroup group => exact haddGroup .and group
  | orGroup group => exact haddGroup .or group
  | orWhere field filter => exact hadd .or field filter
  | orCompare comparison field v => exact hadd .or field (.compare comparison v)
  | _ => exact hadd .and _ _

/-- A call on a query extends it. -/
theorem QueryCall.apply_extends (call : QueryCall) (q : Query) : q.Extends (call.apply q) := by
  cases call with
  | condition call =>
    rw [apply, call.apply_eq_modify]
    exact ⟨call.apply_extends q.conditions, List.prefix_rfl, List.prefix_rfl, List.prefix_rfl⟩
  | having item => exact ⟨.refl _, List.prefix_append _ _, List.prefix_rfl, List.prefix_rfl⟩
  | leftJoin join => exact ⟨.refl _, List.prefix_rfl, List.prefix_append _ _, List.prefix_rfl⟩
  | union kind other => exact ⟨.refl _, List.prefix_rfl, List.prefix_rfl, List.prefix_append _ _⟩
  -- What is left changes the token, or the clauses that hold no values.
  | _ => exact ⟨.refl _, List.prefix_rfl, List.prefix_rfl, List.prefix_rfl⟩

/-- A call on an update extends it. -/
theorem UpdateCall.apply_extends (call : UpdateCall) (u : Update) : u.Extends (call.apply u) := by
  cases call with
  | condition call =>
    rw [apply, call.apply_eq_modify]
    exact ⟨List.prefix_rfl, List.prefix_rfl, call.apply_extends u.conditions⟩
  | assign change field v => exact ⟨List.prefix_append _ _, List.prefix_rfl, .refl _⟩
  | leftJoin join => exact ⟨List.prefix_rfl, List.prefix_append _ _, .refl _⟩
  | order field direction => exact ⟨List.prefix_rfl, List.prefix_rfl, .refl _⟩
  | limited rows => exact ⟨List.prefix_rfl, List.prefix_rfl, .refl _⟩

/-- A call on a deletion extends its conditions. -/
theorem DeleteCall.apply_extends (call : DeleteCall) (d : Delete) :
    d.conditions.Extends (call.apply d).conditions := by
  cases call with
  | condition call =>
    rw [apply, call.apply_eq_modify]
    exact call.apply_extends d.conditions
  | limited rows => exact .refl _

/-- Any number of calls on a query extend it. -/
theorem QueryCall.foldl_extends (calls : List QueryCall) (q : Query) :
    q.Extends (calls.foldl (fun q call => call.apply q) q) := by
  induction calls generalizing q with
  | nil => exact .refl q
  | cons call rest ih => exact (call.apply_extends q).trans (ih (call.apply q))

/-- Any number of calls on an update extend it. -/
theorem UpdateCall.foldl_extends (calls : List UpdateCall) (u : Update) :
    u.Extends (calls.foldl (fun u call => call.apply u) u) := by
  induction calls generalizing u with
  | nil => exact .refl u
  | cons call rest ih => exact (call.apply_extends u).trans (ih (call.apply u))

/-- Any number of calls on a deletion extend its conditions. -/
theorem DeleteCall.foldl_extends (calls : List DeleteCall) (d : Delete) :
    d.conditions.Extends (calls.foldl (fun d call => call.apply d) d).conditions := by
  induction calls generalizing d with
  | nil => exact .refl _
  | cons call rest ih => exact (call.apply_extends d).trans (ih (call.apply d))

end DynamicSql
