/-! Walks over a schema: what they note down, and how they fail.
A walk gives its notes in order, and then a result or the name of a collection that is missing.
Notes made before a failure are kept. -/
namespace DocumentViews

inductive Level where
  | debug
  | info
  | warn
deriving DecidableEq

def Level.label : Level → String
  | .debug => "DEBUG"
  | .info => "INFO"
  | .warn => "WARN"

/-- Why a field is not nested, or not as its relation asks. -/
inductive Remark where
  | noRelated
  | excluded (target : String)
  | selfRelation
  | backReference (parent : String)
  | noJoin
  | unknownColumns (keyHolder column target foreignColumn : String)
  | unknownSort (sort target : String)
  | noDiscriminant (column : String)
  | filtered (target : String)
  | noTargets
deriving DecidableEq

namespace Remark

def level : Remark → Level
  | .noJoin => .warn
  | .unknownColumns _ _ _ _ => .warn
  | .unknownSort _ _ => .warn
  | .noDiscriminant _ => .warn
  | _ => .debug

def text : Remark → String
  | .noRelated => "m2o relation without related collection"
  | .excluded target => s!"target {target} is excluded"
  | .selfRelation => "skipping self-relation"
  | .backReference parent => s!"skipping back-reference to parent {parent}"
  | .noJoin => "relation has no join schema (table/column/foreign_key_column), field dropped"
  | .unknownColumns keyHolder column target foreignColumn =>
    s!"join columns {keyHolder}.{column} / {target}.{foreignColumn} not in schema, field dropped"
  | .unknownSort sort target => s!"sort field {sort} not in {target}, ignored"
  | .noDiscriminant column => s!"discriminant column {column} not in schema, field dropped"
  | .filtered target => s!"polymorphic target {target} filtered"
  | .noTargets => "no polymorphic targets left"

end Remark

structure Note where
  collection : String
  field : String
  remark : Remark
deriving DecidableEq

def Note.text (note : Note) : String :=
  note.collection ++ "." ++ note.field ++ ": " ++ note.remark.text

structure MissingCollection where
  name : String
deriving DecidableEq

def MissingCollection.message (missing : MissingCollection) : String := missing.name ++ " not found"

/-- Notes in order, and a result or a failure. -/
structure Walk (α : Type) where
  notes : List Note
  outcome : Except MissingCollection α

namespace Walk

variable {α β : Type}

/-- Goes on with a second walk unless the first one failed. -/
def andThen (first : Walk α) (next : α → Walk β) : Walk β :=
  match first.outcome with
  | .error missing => ⟨first.notes, .error missing⟩
  | .ok value =>
    let second := next value
    ⟨first.notes ++ second.notes, second.outcome⟩

instance : Monad Walk where
  pure value := ⟨[], .ok value⟩
  bind := andThen

def note (entry : Note) : Walk Unit := ⟨[entry], .ok ()⟩

def missing (name : String) : Walk α := ⟨[], .error ⟨name⟩⟩

/-- Walks over a list in order and keeps the results there are. -/
def gather (step : α → Walk (Option β)) : List α → Walk (List β)
  | [] => pure []
  | item :: rest => do
    let found ← step item
    let others ← gather step rest
    pure (found.toList ++ others)

@[simp]
theorem outcome_bind (first : Walk α) (next : α → Walk β) :
    (first >>= next).outcome = first.outcome.bind fun value => (next value).outcome := by
  show (first.andThen next).outcome = _
  unfold andThen
  cases first.outcome <;> rfl

@[simp]
theorem outcome_pure (value : α) : (pure value : Walk α).outcome = .ok value := rfl

@[simp]
theorem outcome_note (entry : Note) : (note entry).outcome = .ok () := rfl

end Walk

end DocumentViews
