import SourceCanvas.Store.Memory
import SourceCanvas.Store.Table
import SourceCanvas.Supply

/-!
# Stores

A store is one in memory or a database. `Storage` adds a schedule of failures: calls by what they
ask and when, which are refused before the store sees them.
-/

namespace SourceCanvas

/-- A store. -/
inductive Store where
  | memory (memory : Memory)
  | database (database : Database)
  deriving DecidableEq

namespace Store

/-- Answers a call, given the id to be used where it needs a fresh one. -/
def perform (fresh : String) (store : Store) (call : StoreCall) :
    Except Fault StoreReply × Store :=
  match store with
  | memory kept =>
    let (reply, kept) := kept.perform fresh call
    (reply, memory kept)
  | database kept =>
    let (reply, kept) := kept.perform fresh call
    (reply, database kept)

/-- Answers a call with an id from a supply where it needs a fresh one. -/
def answer (store : Store) (supply : Supply) (call : StoreCall) :
    Except Fault StoreReply × Store × Supply :=
  let (fresh, drawn) := supply.drawRecord
  let (reply, store) := store.perform fresh call
  (reply, store, if call.draws then drawn else supply)

/-- What a store answers to a call, where only the answer is of interest. -/
def read (store : Store) (call : StoreCall) : Except Fault StoreReply := (store.perform "" call).1

end Store

/-- A store with a schedule of failures. -/
structure Storage where
  store : Store
  /-- by the name of what is asked: which calls fail, counted from one, where zero means all -/
  failing : Catalog (List Nat) := []
  /-- how many calls of each name there were -/
  counts : Catalog Nat := []

namespace Storage

/-- The failure of a scheduled call. -/
def outage : Fault := .store (.because "store down")

/-- Whether the call with a number fails. -/
def fails (storage : Storage) (operation : String) (number : Nat) : Bool :=
  ((storage.failing.get? operation).getD []).any fun planned => planned == 0 || planned == number

/-- Answers a call, or fails where that is planned. -/
def perform (storage : Storage) (supply : Supply) (call : StoreCall) :
    Except Fault StoreReply × Storage × Supply :=
  let number := (storage.counts.get? call.operation).getD 0 + 1
  let counted := { storage with counts := Catalog.insert call.operation number storage.counts }
  if storage.fails call.operation number then
    (.error outage, counted, supply)
  else
    let (reply, store, supply) := storage.store.answer supply call
    (reply, { counted with store }, supply)

end Storage

end SourceCanvas
