/-
  The audit of independent actions, after `poiex_runtime/action_independence.py`: actions are grouped
  by what their contracts have in common, and the groups are counted.
-/
import PoiexGoc.Lib.Grouping
import PoiexGoc.Lib.PyRepr

namespace PoiexGoc

open Py

structure ActionContractSignature where
  actionId : String
  authorityScope : String
  targetType : String
  requiredEvidence : List String
  materialEffect : String
  deriving DecidableEq

/-- Scope, target type, required evidence in order, and effect. -/
abbrev EffectKey := String × String × List String × String

namespace ActionContractSignature

def effectKey (action : ActionContractSignature) : EffectKey :=
  (action.authorityScope, action.targetType, action.requiredEvidence.insertionSort (· ≤ ·),
    action.materialEffect)

end ActionContractSignature

structure ActionIndependenceResult where
  rawActionCount : Nat
  independentEffectClassCount : Nat
  effectClasses : List (List String)
  negativeSeal : String
  deriving DecidableEq

namespace ActionIndependence

open ActionContractSignature

/-- The key as `repr` sees it. -/
def effectPyKey : EffectKey → PyKey
  | (scope, target, evidence, effect) =>
    .tuple [.str scope, .str target, .tuple (evidence.map PyKey.str), .str effect]

/-- `audit_action_independence`. -/
def auditActionIndependence [UnicodeTables] (actions : List ActionContractSignature) :
    ActionIndependenceResult :=
  let raw := actions.foldl (fun n _ => n + 1) 0
  let grouped := Grouping.group effectKey actionId actions
  let classes := (grouped.insertionSort fun a b =>
    pyRepr (effectPyKey a.1) ≤ pyRepr (effectPyKey b.1)).map fun g => g.2.insertionSort (· ≤ ·)
  { rawActionCount := raw
    independentEffectClassCount := classes.length
    effectClasses := classes
    negativeSeal := "ACTION_COUNT != INDEPENDENT_EFFECT_CLASS_COUNT" }

end ActionIndependence

end PoiexGoc
