import PipingAssembly.Decimal.Shortest
import PipingAssembly.Instance.Codec

/-!
# Warnings

What went less than well in a run that still has a result.
-/

namespace PipingAssembly

/-- A condition that a run reports and goes on. -/
inductive Warning where
  /-- the exchange file has no products, so the catalog was used -/
  | emptyExchangeFile (name : String)
  | unknownEndpoint (constraintId instanceId : String)
  | fallbackPlacement (instanceId : String) (slot : UInt64) (position : Vec3 Float)
  /-- there was no mesh to be had, so a primitive was used -/
  | geometryUnavailable (partId reason : String)
  /-- both sides have a nominal diameter and these differ -/
  | dnMismatch (constraintId entityA : String) (dnA : UInt32) (entityB : String) (dnB : UInt32)
  deriving Inhabited

namespace Warning

/-- The text of a warning. -/
def message : Warning → String
  | emptyExchangeFile name => name ++ " declares no products; using the catalog selection"
  | unknownEndpoint constraintId instanceId =>
    "constraint " ++ constraintId ++ " references unknown instance " ++ instanceId
  | fallbackPlacement instanceId slot position =>
    instanceId ++ " is not reachable through constraints; placed in grid slot " ++
      Decimal.natText slot.toNat ++ " at (" ++
      ", ".intercalate (position.toList.map Decimal.plainText) ++ ")"
  | geometryUnavailable partId reason =>
    "no mesh for " ++ partId ++ " (" ++ reason ++ "); using a primitive"
  | dnMismatch constraintId entityA dnA entityB dnB =>
    "constraint " ++ constraintId ++ " joins " ++ entityA ++ " (DN" ++ Decimal.natText dnA.toNat ++
      ") to " ++ entityB ++ " (DN" ++ Decimal.natText dnB.toNat ++ ")"

/-- The value of a warning. -/
def toValue : Warning → Value
  | emptyExchangeFile name =>
    .object [("kind", .text "empty_exchange_file"), ("name", .text name)]
  | unknownEndpoint constraintId instanceId =>
    .object [("kind", .text "unknown_endpoint"), ("constraint_id", .text constraintId),
      ("instance_id", .text instanceId)]
  | fallbackPlacement instanceId slot position =>
    .object [("kind", .text "fallback_placement"), ("instance_id", .text instanceId),
      ("slot", .int slot.toNat), ("position", position.toValue)]
  | geometryUnavailable partId reason =>
    .object [("kind", .text "geometry_unavailable"), ("part_id", .text partId),
      ("reason", .text reason)]
  | dnMismatch constraintId entityA dnA entityB dnB =>
    .object [("kind", .text "dn_mismatch"), ("constraint_id", .text constraintId),
      ("entity_a", .text entityA), ("dn_a", .ofUInt32 dnA), ("entity_b", .text entityB),
      ("dn_b", .ofUInt32 dnB)]

end Warning

end PipingAssembly
