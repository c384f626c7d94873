/-
  Store selection, after `poiex_runtime/runtime_factory.py` and the factory of the Firestore
  adapter.

  A process has its environment variables.  What a factory needs from the interpreter is
  `str.lower`, a parameter here, and whether the Firestore package can be imported; with the package
  there, its client is created without an exception.
-/
import PoiexGoc.Runtime.FirestoreStore

namespace PoiexGoc

open Py

/-- `os.environ`. -/
abbrev Env := String → Option String

/-- The database a client is opened on; an absent name is left to the client. -/
structure Database where
  project : Option String
  database : Option String
  deriving DecidableEq

/-- `FirestoreStore.from_default_credentials`. -/
def FirestoreStore.fromDefaultCredentials (installed : Bool) (database : Database)
    (collectionPrefix : String) : Except PyError (Database × FirestoreStore) :=
  if installed then do
    let fs ← FirestoreStore.create collectionPrefix
    .ok (⟨truthy database.project, truthy database.database⟩, fs)
  else
    .error (.runtimeError
      "google-cloud-firestore is not installed; install the optional google dependencies")

/-- The store a factory returns: a new local one, or what the Firestore factory made. -/
inductive Selection (α : Type) where
  | memory
  | firestore (made : α)

/-- `build_store_from_env`. -/
def buildStoreFromEnv {α : Type} (lower : String → String) (env : Env)
    (firestoreFactory : Database → String → Except PyError α) : Except PyError (Selection α) :=
  let mode := lower (strip ((env "POIEX_GOC_STORE").getD "memory"))
  let onCloudRun := truthy (env "K_SERVICE") ≠ none
  if onCloudRun ∧ mode ≠ "firestore" then
    .error (.runtimeError ("Cloud Run execution must explicitly set POIEX_GOC_STORE=firestore; " ++
      "refusing ephemeral MemoryStore for governed state"))
  else if mode = "memory" then .ok .memory
  else if mode ≠ "firestore" then
    .error (.valueError ("unsupported POIEX_GOC_STORE mode: " ++ mode))
  else
    (firestoreFactory ⟨truthy (env "GOOGLE_CLOUD_PROJECT"), truthy (env "FIRESTORE_DATABASE")⟩
      ((env "POIEX_GOC_NAMESPACE").getD "poiex_goc_v0_1")).map .firestore

/-- On Cloud Run governed state is never kept in a store that ends with the request. -/
theorem buildStoreFromEnv_ne_memory {α : Type} (lower : String → String) {env : Env}
    (hcloud : truthy (env "K_SERVICE") ≠ none)
    (firestoreFactory : Database → String → Except PyError α) :
    buildStoreFromEnv lower env firestoreFactory ≠ .ok .memory := by
  unfold buildStoreFromEnv
  by_cases hmode : lower (strip ((env "POIEX_GOC_STORE").getD "memory")) = "firestore"
  · rw [if_neg (fun h => h.2 hmode), hmode, if_neg (by decide), if_neg (not_not_intro rfl)]
    cases firestoreFactory ⟨truthy (env "GOOGLE_CLOUD_PROJECT"),
        truthy (env "FIRESTORE_DATABASE")⟩ ((env "POIEX_GOC_NAMESPACE").getD "poiex_goc_v0_1") with
    | error e => exact fun h => nomatch h
    | ok made => exact fun h => nomatch Except.ok.inj h
  · rw [if_pos ⟨hcloud, hmode⟩]
    exact fun h => nomatch h

end PoiexGoc
