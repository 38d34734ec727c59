import RealmDirectory.Endpoint
/-!
# Links

Every connection of a realm server has a `LinkId` that is never used again, and the directory
remembers under it who called and whether the connection is still there. A realm names the link
that registered it by its id alone: the link may be closed, or forgotten altogether, while the
realm stays in the directory.
-/

namespace RealmDirectory

/-- The identity of a connection. -/
abbrev LinkId := Nat

/-- How far a connection has come. -/
inductive LinkState where
  /-- The connection is served. -/
  | live
  /-- It was torn down. -/
  | closed
  /-- Nobody holds it any more. -/
  | gone
  deriving DecidableEq, Repr

/-- A connection as the directory remembers it. -/
structure Link where
  peer : Endpoint
  state : LinkState
  deriving Repr

/-- All connections so far; the id of one is its place. -/
structure Links where
  all : Array Link
  deriving Repr

namespace Links

/-- No connection yet. -/
def empty : Links := ⟨#[]⟩

/-- A new connection. -/
def add (links : Links) (peer : Endpoint) : LinkId × Links :=
  (links.all.size, ⟨links.all.push ⟨peer, .live⟩⟩)

/-- The state of a connection. -/
def state? (links : Links) (id : LinkId) : Option LinkState := links.all[id]?.map (·.state)

/-- The connection is still served. -/
def isLive (links : Links) (id : LinkId) : Bool := links.state? id == some .live

/-- Moves a connection to a state; one that is gone stays so. -/
def setState (links : Links) (id : LinkId) (state : LinkState) : Links :=
  ⟨links.all.modify id fun link =>
    if link.state = .gone then link else { link with state }⟩

/-- Marks a connection as torn down. -/
def close (links : Links) (id : LinkId) : Links := links.setState id .closed

/-- Forgets a connection. -/
def forget (links : Links) (id : LinkId) : Links := links.setState id .gone

end Links

end RealmDirectory
