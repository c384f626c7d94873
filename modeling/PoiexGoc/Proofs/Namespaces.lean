/-
  NAMESPACES: several document stores on one client do not see each other.

  1. `collection_inj` — a collection is named by a namespace, an underscore and a kind.  A namespace
     may contain underscores and end in anything, but none of the seven kinds, with its underscore,
     ends in another (`UniqueReading.SuffixFree`), so the name tells both parts.

  2. `opKey_inj_across` — hence documents of different namespaces, kinds or ids are different ones.

  3. `namespaces_are_isolated` — and operations are about one document each, so a store answers as
     if the operations of the other namespaces had not been there.
-/
import PoiexGoc.Lib.UniqueReading
import PoiexGoc.Proofs.DocumentFrames

namespace PoiexGoc

open Py Effect UniqueReading

/-- The seven kinds of documents. -/
def docKinds : List String := registryKinds ++ ["receipts", "synthetic_actions"]

theorem StoreOp.docName_mem_docKinds (o : StoreOp) : o.docName.1 ∈ docKinds := by
  cases o <;> simp [StoreOp.docName, docKinds, registryKinds]

/-- A kind as it ends the name of a collection. -/
def kindEnding (kind : String) : List Char := '_' :: kind.toList

theorem kindEndings_suffixFree : SuffixFree (docKinds.map kindEnding) := by decide

theorem toList_collection (collectionPrefix kind : String) :
    (collectionPrefix ++ "_" ++ kind).toList = collectionPrefix.toList ++ kindEnding kind := by
  rw [String.toList_append, String.toList_append, List.append_assoc]
  rfl

/-- The name of a collection tells its namespace and its kind. -/
theorem collection_inj {collectionPrefix collectionPrefix' kind kind' : String}
    (hkind : kind ∈ docKinds) (hkind' : kind' ∈ docKinds)
    (heq : collectionPrefix ++ "_" ++ kind = collectionPrefix' ++ "_" ++ kind') :
    collectionPrefix = collectionPrefix' ∧ kind = kind' := by
  have hlist := congrArg String.toList heq
  rw [toList_collection, toList_collection] at hlist
  obtain ⟨hnamespace, hending⟩ := append_inj_of_suffixFree kindEndings_suffixFree
    (List.mem_map_of_mem hkind) (List.mem_map_of_mem hkind') hlist
  exact ⟨String.toList_inj.mp hnamespace, String.toList_inj.mp (List.cons.inj hending).2⟩

theorem FirestoreStore.opKey_inj_across {fs fs' : FirestoreStore} {o o' : StoreOp}
    (heq : fs.opKey o = fs'.opKey o') : fs = fs' ∧ o.docName = o'.docName := by
  obtain ⟨hcollection, hid⟩ := Prod.mk.inj heq
  obtain ⟨hnamespace, hkind⟩ :=
    collection_inj o.docName_mem_docKinds o'.docName_mem_docKinds hcollection
  refine ⟨?_, Prod.ext hkind hid⟩
  cases fs
  cases fs'
  cases hnamespace
  rfl

/-- The documents of a namespace. -/
def FirestoreStore.Owns (fs : FirestoreStore) (key : String × String) : Prop :=
  ∃ o : StoreOp, key = fs.opKey o

theorem FirestoreStore.not_owns_of_ne {fs fs' : FirestoreStore}
    (hne : fs.collectionPrefix ≠ fs'.collectionPrefix) (o : StoreOp) : ¬ fs.Owns (fs'.opKey o) := by
  rintro ⟨o', heq⟩
  obtain ⟨hsame, -⟩ := FirestoreStore.opKey_inj_across heq
  exact hne (congrArg FirestoreStore.collectionPrefix hsame.symm)

/-! ## Stores on one client -/

section Sharing

variable [PyRuntime]

/-- The client after operations of the stores named, one after the other. -/
def FirestoreClient.after (c : FirestoreClient) : List (FirestoreStore × StoreOp) → FirestoreClient
  | [] => c
  | e :: ops => (e.1.handle e.2 c).2.after ops

/-- The operations of one namespace among all. -/
def ownOps (fs : FirestoreStore) (ops : List (FirestoreStore × StoreOp)) :
    List (FirestoreStore × StoreOp) :=
  ops.filter fun e => e.1.collectionPrefix = fs.collectionPrefix

/-- Only the operations of a namespace count for its documents.  Induction on the operations; two
    clients that agree on the namespace are carried along. -/
theorem agreeOn_after (fs : FirestoreStore) (ops : List (FirestoreStore × StoreOp))
    {c c' : FirestoreClient} (hagree : FirestoreStore.AgreeOn fs.Owns c c') :
    FirestoreStore.AgreeOn fs.Owns (c.after ops) (c'.after (ownOps fs ops)) := by
  induction ops generalizing c c' with
  | nil => exact hagree
  | cons e ops ih =>
    obtain ⟨fs', o⟩ := e
    by_cases hown : fs'.collectionPrefix = fs.collectionPrefix
    · have hsame : fs' = fs := by
        cases fs'
        cases fs
        cases hown
        rfl
      subst hsame
      have hkept : ownOps fs' ((fs', o) :: ops) = (fs', o) :: ownOps fs' ops :=
        List.filter_cons_of_pos (decide_eq_true hown)
      rw [hkept]
      exact ih (hagree.own ⟨o, rfl⟩).2
    · have hdropped : ownOps fs ((fs', o) :: ops) = ownOps fs ops :=
        List.filter_cons_of_neg (by simpa using hown)
      rw [hdropped]
      exact ih (hagree.other (Or.inr (FirestoreStore.not_owns_of_ne (Ne.symm hown) o)))

/-- Namespaces are isolated.  A store answers as after its own operations alone, whatever operations
    of stores with other namespaces came in between; one more of them changes no answer; and within
    a namespace an operation changes no answer about another kind or id. -/
theorem namespaces_are_isolated (fs : FirestoreStore) (c : FirestoreClient)
    (ops : List (FirestoreStore × StoreOp)) (o : StoreOp) :
    (fs.handle o (c.after ops)).1 = (fs.handle o (c.after (ownOps fs ops))).1 ∧
    (∀ (fs' : FirestoreStore) (o' : StoreOp), fs'.collectionPrefix ≠ fs.collectionPrefix →
      (fs.handle o (fs'.handle o' (c.after ops)).2).1 = (fs.handle o (c.after ops)).1) ∧
    (∀ o' : StoreOp, o'.docName ≠ o.docName →
      (fs.handle o (fs.handle o' (c.after ops)).2).1 = (fs.handle o (c.after ops)).1) := by
  refine ⟨?_, ?_, ?_⟩
  · exact fs.handle_answer (agreeOn_after fs ops (FirestoreStore.AgreeOn.refl fs.Owns c) _ ⟨o, rfl⟩)
  · intro fs' o' hne
    have hkey : fs.opKey o ≠ fs'.opKey o' := by
      intro heq
      obtain ⟨hsame, -⟩ := FirestoreStore.opKey_inj_across heq
      exact hne (congrArg FirestoreStore.collectionPrefix hsame.symm)
    exact fs.handle_answer (fs'.lookup_handle_of_ne hkey _)
  · intro o' hne
    refine fs.handle_answer_keep (Or.inr ?_) _
    intro heq
    exact hne (fs.opKey_inj.mp heq).symm

end Sharing

end PoiexGoc
