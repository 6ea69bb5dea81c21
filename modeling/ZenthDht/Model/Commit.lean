import ZenthDht.Model.Dispatch

/-!
# INSERTs that take time

For `Stmt.exec` a statement is one step.  PostgreSQL draws the id of a new row from the sequence
of the table when the INSERT starts and shows the row to other connections when it commits, so
the rows of concurrent INSERTs may appear in another order than their ids.  `postgres` is the
server with this behaviour of the INSERT into `relay_messages`, the table whose ids are handed
out as a position to read from.

The act `draw` is an INSERT that starts; `commit` and `abort` resolve the step in which it ends.
Which thread has drawn an id is not recorded, so every thread about to insert may end up with
any of the ids drawn and not used: these are all the runs of PostgreSQL, and some more.
-/

namespace ZenthDht

open Conc

/-- The world, with the ids drawn by INSERTs into `relay_messages` that have not ended. -/
structure PgWorld where
  world : World
  drawn : List Nat := []

/-- What the world decides, and how an INSERT in progress ends. -/
inductive PgOracle
  | server (ω : Oracle)
  | commit (id : Nat)
  | abort (id : Nat) (message : String)

inductive PgAct
  | server (a : Act)
  | draw

/-- The row of an INSERT that has drawn `id` becomes visible. -/
def PgWorld.insertRelay (w : PgWorld) (n : NewRelayMessage) (id : Nat) : PgWorld :=
  { world := { w.world with db := { w.world.db with
      relayMessages := w.world.db.relayMessages ++ [⟨id, n.forDeviceDilithiumPubkey, n.ciphertext,
        n.nonce, n.expiresAt⟩] } }
    drawn := w.drawn.erase id }

/-- Operations are those of the server.  An INSERT that has drawn its id ends by a commit or an
error; one that is executed at once starts and commits in one step. -/
def performPg (verifyDetached : Bytes → Bytes → Bytes → Bool) :
    (o : Op) → PgOracle → PgWorld → Option (Res o × PgWorld)
  | o, .server ω, w =>
    (perform verifyDetached o ω w.world).map fun (r, world) ↦ (r, { w with world })
  | .sql (.insertRelay n), .commit id, w =>
    if id ∈ w.drawn then some (.ok id, w.insertRelay n id) else none
  | .sql (.insertRelay _), .abort id m, w =>
    if id ∈ w.drawn then some (.error (.other m), { w with drawn := w.drawn.erase id }) else none
  | _, _, _ => none

/-- `nextval` of the sequence of `relay_messages`. -/
def PgWorld.draw (w : PgWorld) : PgWorld :=
  { world := { w.world with db := { w.world.db with
      seq := { w.world.db.seq with relayMessages := w.world.db.seq.relayMessages + 1 } } }
    drawn := w.drawn ++ [w.world.db.seq.relayMessages] }

def actPg : PgAct → PgWorld → Option PgWorld
  | .server a, w => (act a w.world).map fun world ↦ { w with world }
  | .draw, w => some w.draw

/-- The server over PostgreSQL. -/
def postgres (codec : Codec) (verifyDetached : Bytes → Bytes → Bytes → Bool) :
    Machine Res PgWorld Job (Option Reply) PgOracle PgAct :=
  ⟨code codec, performPg verifyDetached, actPg⟩

/-- A configuration of it. -/
abbrev PgState : Type := Config Res PgWorld Job (Option Reply)

/-- A run of it. -/
abbrev PgMoves : Type := List (Move Job PgOracle PgAct)

end ZenthDht
