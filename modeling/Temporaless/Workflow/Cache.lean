import Temporaless.Workflow.Interface

/-!
# The run-scoped cache

The methods of `runScopedCache`. The three record families have the same methods, so each method
is one definition with the family as its parameter. Reads in the scope of the cache are served
from memory where possible; writes go through to the store first.
-/

namespace Temporaless

open Effects

namespace RunScopedCache

def inScope (c : RunScopedCache) (key : WorkflowKey) : Bool :=
  key.ns == c.scope.ns && key.workflowID == c.scope.workflowID && key.runID == c.scope.runID

def setEntry (c : RunScopedCache) (k : StoreKind) (id : String) (entry : Option k.Record) :
    RunScopedCache :=
  let shelf := { c.shelf k with entries := (c.shelf k).entries.insert id entry }
  { c with shelf := Function.update c.shelf k shelf }

def setEntries (c : RunScopedCache) (k : StoreKind) : List k.Record → RunScopedCache
  | [] => c
  | record :: records => (c.setEntry k (k.key record).id (some record)).setEntries k records

def setListed (c : RunScopedCache) (k : StoreKind) (records : List k.Record) : RunScopedCache :=
  let filled := c.setEntries k records
  let shelf := { filled.shelf k with listed := true }
  { filled with shelf := Function.update filled.shelf k shelf }

def cachedRecords (c : RunScopedCache) (k : StoreKind) (filter : k.Filter) : List k.Record :=
  ((c.shelf k).entries.entries.filterMap fun e => e.2).filter (k.admits filter)

def setWorkflow (c : RunScopedCache) (record : Option WorkflowRecord) : RunScopedCache :=
  { c with workflowKnown := true, workflow := record }

end RunScopedCache

def Memory.changeCache (change : RunScopedCache → RunScopedCache) (m : Memory) : Memory :=
  { m with cache := change m.cache }

def sameCachedWorkflowRun (key run : WorkflowKey) : Bool :=
  key.withDefaults == run.withDefaults

/-- `validateActivityList` and its siblings. -/
def validateList (k : StoreKind) (run : WorkflowKey) (filter : k.Filter) :
    List k.Record → Except Err Unit
  | [] => .ok ()
  | record :: records => do
    k.validate record (k.key record)
    guardCorrupt (sameCachedWorkflowRun run (k.key record).run)
      (k.kind.name ++ " list payload crosses the requested workflow run")
    guardCorrupt (k.admits filter record)
      (k.kind.name ++ " list payload does not match the requested status")
    validateList k run filter records

namespace CachedStore

/-- `loadActivity` and its siblings. A store reply is present exactly when it is found. -/
def loadItem (k : StoreKind) (key : ItemKey k.kind) : FlowM (Option k.Record) := do
  match ← callStore (.get k key) with
  | none => return none
  | some record =>
    k.validate record key
    return some record

def loadWorkflow (key : WorkflowKey) : FlowM (Option WorkflowRecord) := do
  match ← callStore (.getWorkflow key) with
  | none => return none
  | some record =>
    validateWorkflowRecord record key
    return some record

def loadList (k : StoreKind) (run : WorkflowKey) (filter : k.Filter) : FlowM (List k.Record) := do
  let records ← callStore (.list k run filter)
  validateList k run filter records
  return records

def follow (run : WorkflowKey) (change : RunScopedCache → RunScopedCache) : FlowM Unit := do
  let cache := (← recollect).cache
  if cache.inScope run then
    remember (Memory.changeCache change)

def reloadItem (k : StoreKind) (key : ItemKey k.kind) : FlowM (Option k.Record) := do
  let record ← loadItem k key
  remember (Memory.changeCache (·.setEntry k key.id record))
  return record

def getItem (k : StoreKind) (key : ItemKey k.kind) : FlowM (Option k.Record) := do
  let cache := (← recollect).cache
  if !cache.inScope key.run then
    loadItem k key
  else
    match (cache.shelf k).entries.lookup key.id with
    | some entry => return entry
    | none => if (cache.shelf k).listed then return none else reloadItem k key

def refreshItem (k : StoreKind) (key : ItemKey k.kind) : FlowM (Option k.Record) := do
  let cache := (← recollect).cache
  if !cache.inScope key.run then loadItem k key else reloadItem k key

def putItem (k : StoreKind) (record : k.Record) : FlowM Unit := do
  callStore (.put k record)
  follow (k.key record).run (·.setEntry k (k.key record).id (some record))

def listItems (k : StoreKind) (run : WorkflowKey) (filter : k.Filter) : FlowM (List k.Record) := do
  let cache := (← recollect).cache
  if !cache.inScope run then
    loadList k run filter
  else if (cache.shelf k).listed then
    return cache.cachedRecords k filter
  else
    let records ← loadList k run filter
    -- a filtered listing could hide records that are asked for later
    if k.isEverything filter then
      remember (Memory.changeCache (·.setListed k records))
    return records

def deleteItem (k : StoreKind) (key : ItemKey k.kind) : FlowM Bool := do
  let deleted ← callStore (.delete k key)
  follow key.run (·.setEntry k key.id none)
  return deleted

def getWorkflow (key : WorkflowKey) : FlowM (Option WorkflowRecord) := do
  let cache := (← recollect).cache
  if !cache.inScope key then
    loadWorkflow key
  else if cache.workflowKnown then
    return cache.workflow
  else
    let record ← loadWorkflow key
    -- a record that is not found leaves the field as it was
    remember (Memory.changeCache fun c => c.setWorkflow (record.or c.workflow))
    return record

def putWorkflow (record : WorkflowRecord) : FlowM Unit := do
  callStore (.putWorkflow record)
  follow (workflowKeyFromProto record.key) (·.setWorkflow (some record))

def deleteWorkflow (key : WorkflowKey) : FlowM Bool := do
  let deleted ← callStore (.deleteWorkflow key)
  follow key (·.setWorkflow none)
  return deleted

def prefetch : FlowM Unit := do
  let scope := (← recollect).cache.scope
  let activities ← attempt (callStore (.list .activity scope ()))
  let timers ← attempt (callStore (.list .timer scope .unspecified))
  let events ← attempt (callStore (.list .event scope ()))
  let activities ← activities
  let timers ← timers
  let events ← events
  validateList .activity scope () activities
  validateList .timer scope .unspecified timers
  validateList .event scope () events
  remember (Memory.changeCache fun c =>
    ((c.setListed .activity activities).setListed .timer timers).setListed .event events)

end CachedStore

end Temporaless
