import PipingAssembly.Command.Effect

/-!
# Commands that show the catalog

They list the parts and the rules, score a pair of parts, list the instances of an exchange file and
tell of the database.
-/

namespace PipingAssembly.Command

open Effect

/-- Lists the parts of a selection. -/
def listParts (o : CommonOptions) (f : PartFilter) : Effect Unit := do
  let p ← project o
  let store ← store p (← configuration p)
  let parts ← ofExcept .store (store.parts f)
  if isStructured o.format then printValue o.format (.list (parts.map Part.toValue))
  else
    printTable o.format o.quiet "part" {
      headers := ["ID", "FAMILY", "DN", "PN", "THREAD", "NAME"]
      rows := parts.map fun p ↦
        [p.id, p.family.name, numberOrDash p.dn, numberOrDash p.pn, p.thread.getD "-",
          truncateText p.displayName 40] }

/-- Lists the rules in the order in which they are tried, inactive ones only when asked for. -/
def listRules (o : CommonOptions) (all : Bool) : Effect Unit := do
  let p ← project o
  let rules ←
    if all then pure (p.allRules (← workspace).files)
    else do
      let store ← store p (← configuration p)
      ofExcept .store store.activeRules
  if isStructured o.format then printValue o.format (.list (rules.map Rule.toValue))
  else
    printTable o.format o.quiet "rule" {
      headers := ["ID", "PRIORITY", "CONDITION", "TYPE", "ACTIVE", "NAME"]
      rows := rules.map fun r ↦
        [r.id, toString r.priority.toInt, r.condition.kind, r.action.type.name,
          if r.isActive then "yes" else "no", truncateText r.name 40] }

/-- The value of a rule that applies to a pair. -/
private def matchValue (m : RuleMatch Float) : Value :=
  .object
    [("rule_id", .text m.rule.id), ("name", .text m.rule.name),
     ("constraint_type", .text m.rule.action.type.name), ("priority", .int m.rule.priority.toInt),
     ("confidence", .real m.confidence)]

/-- The part of a store with an id, or the one that the id describes. -/
private def partFor (store : CatalogStore) (id : String) : Effect Part := do
  let found ← ofExcept .store (store.parts { ids := [id] })
  return found.head?.getD (Part.ofProduct id)

/-- Lists the best rule for a pair of parts, or all that apply. -/
def matchPair (o : CommonOptions) (a b : String) (all : Bool) : Effect Unit := do
  let p ← project o
  let c ← configuration p
  let store ← store p c
  let rules ← ofExcept .store store.activeRules
  let a ← partFor store a
  let b ← partFor store b
  let found := matchingRules a b rules c.effectivePolicy.matching
  let shown := if all then found else (bestMatch? found).toList
  if isStructured o.format then printValue o.format (.list (shown.map matchValue))
  else if shown.isEmpty then
    if !o.quiet then
      printLine ("! No rule applies to " ++ a.displayName ++ " and " ++ b.displayName)
  else
    printTable o.format o.quiet "match" {
      headers := ["RULE", "TYPE", "PRIORITY", "CONFIDENCE", "NAME"]
      rows := shown.map fun m ↦
        [m.rule.id, m.rule.action.type.name, toString m.rule.priority.toInt,
          Decimal.fixed 2 m.confidence, m.rule.name] }

/-- The text of the exchange file that a path names; a file that cannot be read has none. -/
def exchangeText (w : Workspace) (path : String) : String :=
  ((w.bytes? path).map Text.decodeLossy).getD ""

/-- Lists the instances of an exchange file. -/
def parseFile (o : CommonOptions) (path : String) : Effect Unit := do
  let a := Exchange.Assembly.read (exchangeText (← workspace) path)
  let instances := a.instances
  if isStructured o.format then
    printValue o.format <| .object
      [("file", .text path), ("kind", .text a.kind.name), ("entities", .int a.entityCount),
       ("products", .int a.products.length), ("placements", .int a.frames.length),
       ("usages", .int a.usages.length), ("instances", .list (instances.map Instance.toValue))]
  else
    if o.format.isHuman && !o.quiet then
      let n := Decimal.natText
      printLine ("→ " ++ path ++ " (" ++ a.kind.name ++ "): " ++ n a.entityCount ++ " entities, " ++
        n a.products.length ++ " products, " ++ n a.frames.length ++ " placements, " ++
        n a.usages.length ++ " usages")
      printLine ""
    printTable o.format o.quiet "instance" {
      headers := ["INSTANCE", "PART", "FAMILY", "DN", "POSITION", "ROTATION"]
      rows := instances.map fun i ↦
        [i.id, i.partId, i.family.name, numberOrDash i.dn, vectorText i.pose.position,
          vectorText i.pose.rotation] }

/-- Brings the database up to date and tells what had to be done. -/
def syncStore (o : CommonOptions) : Effect Unit := do
  let p ← project o
  let w ← workspace
  let (_, stats, files) ← ofExcept .store (p.syncDatabase w.files w.now)
  setFiles files
  let n := Decimal.natText
  if isStructured o.format then printValue o.format stats.toValue
  else if o.quiet then return
  else if stats.rebuilt then
    printLine "✓ Catalog database rebuilt in 0ms"
    printLine ("  Files scanned: " ++ n stats.filesScanned)
    printLine ("  Parts:         " ++ n stats.parts)
    printLine ("  Rules:         " ++ n stats.rules)
  else printLine "✓ Catalog database is up to date"

/-- Tells of the database. -/
def showStore (o : CommonOptions) : Effect Unit := do
  let p ← project o
  let (d, files) ← ofExcept .store (p.openDatabase (← workspace).files)
  setFiles files
  let info := d.info p.databasePath.text
  let n := Decimal.natText
  if isStructured o.format then printValue o.format info.toValue
  else
    printLine "Catalog Database"
    printLine (String.ofList (List.replicate 40 '─'))
    printLine ("  Location:       " ++ info.path)
    printLine ("  Schema version: " ++ toString info.schemaVersion)
    printLine ("  Parts:          " ++ n info.parts)
    printLine ("  Rules:          " ++ n info.rules ++ " (" ++ n info.activeRules ++ " active)")
    printLine ("  Last sync:      " ++ info.syncedAt.getD "never")
    printLine ("  Database size:  " ++ n (info.sizeBytes / 1024) ++ " KB")
    if info.syncedAt.isNone then
      printLine ""
      printLine "Run tasm store sync to populate the database"

end PipingAssembly.Command
