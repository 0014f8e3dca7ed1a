import WinPolyfillLoader.LdrEntry.State
import WinPolyfillLoader.Library.CircularList

/-!
`RtlFreeDependencies` unlinks a module from the dependency graph: for every
record of its circular `Dependencies` list it takes its own link out of the
circular `IncomingDependencies` list of the dependent node, releases the
dependent and frees the record. The loader lock is held where the source takes
it; the loops carry fuel.
-/

namespace WinPolyfillLoader.LdrEntry

open ProcessHeap CircularList

/-- How a run can stop short of its end. -/
inductive Halt where
  | fastFail
  | invalidRead
  | outOfFuel
deriving DecidableEq, Repr

/-- `(size_t)_entry->IncommingDdagNode & ~1`. -/
def untag (node : Nat) : Nat := node - node % 2

def nextIncoming (state : LdrState) (link : Nat) : Nat := (state.incoming link).nextIncomingEntry

def setNextIncoming (link value : Nat) (state : LdrState) : LdrState :=
  { state with
    incoming := Function.update state.incoming link
      { state.incoming link with nextIncomingEntry := value } }

def modifyNode (node : Nat) (f : LdrDdagNode → LdrDdagNode) (state : LdrState) : LdrState :=
  { state with ddagNodes := Function.update state.ddagNodes node (f (state.ddagNodes node)) }

def setIncomingDependencies (node link : Nat) : LdrState → LdrState :=
  modifyNode node fun n => { n with incomingDependencies := link }

/-- `while (i->Next != _entry) i = i->Next`. -/
def findLast (next : Nat → Nat) (entry : Nat) : Nat → Nat → Except Halt Nat
  | 0, _ => .error .outOfFuel
  | fuel + 1, i => if next i = entry then .ok i else findLast next entry fuel (next i)

def unlinkEntry (fuel dependent last entry : Nat) (state : LdrState) : Except Halt LdrState :=
  let head := (state.ddagNodes dependent).incomingDependencies
  let next := nextIncoming state entry
  if entry = head then
    if next = head then .ok (setIncomingDependencies dependent 0 state)
    else
      match findLast (nextIncoming state) entry fuel next with
      | .error halt => .error halt
      | .ok i => .ok (setIncomingDependencies dependent next (setNextIncoming i next state))
  else .ok (setNextIncoming last next state)

/-- The inner do-while loop: `_entry` walks the list and `_last` trails it. -/
def unlinkIncoming (ddagNode dependent : Nat) : Nat → Nat → Nat → LdrState → Except Halt LdrState
  | 0, _, _, _ => .error .outOfFuel
  | fuel + 1, last, entry, state =>
    if untag (state.incoming entry).incomingDdagNode = ddagNode then
      unlinkEntry fuel dependent last entry state
    else
      let last' := if last ≠ entry then nextIncoming state last else last
      let entry' := nextIncoming state entry
      if entry' ≠ last' then unlinkIncoming ddagNode dependent fuel last' entry' state
      else .ok state

/-- `IsWin8`. -/
def isWin8Range (globals : LdrGlobals) : Bool :=
  decide (systemNt62Rtm ≤ globals.windowsVersion) && decide (globals.windowsVersion < systemWin10Rtm)

def ldrUnloadDll (dllBase : Nat) (state : LdrState) : LdrState :=
  { state with unloaded := state.unloaded ++ [dllBase] }

/-- The counts of the dependent, and the call of `LdrUnloadDll` if it is due. -/
def releaseDependent (globals : LdrGlobals) (moduleEntry : Nat) (state : LdrState) :
    Except Halt LdrState :=
  let entry := state.entries moduleEntry
  if isWin8Range globals then
    if (state.ddagNodes entry.ddagNode).dependencyCount = 0 then .error .fastFail
    else
      let state := modifyNode entry.ddagNode
        (fun n => { n with dependencyCount := n.dependencyCount - 1 }) state
      let node := state.ddagNodes entry.ddagNode
      if node.loadCount = 0 ∧ node.referenceCount = 1 ∧ node.dependencyCount = 0 then
        .ok (ldrUnloadDll entry.dllBase
          (modifyNode entry.ddagNode (fun n => { n with loadCount := 1 }) state))
      else .ok state
  else .ok (ldrUnloadDll entry.dllBase state)

/-- `RtlFreeHeap` of a dependency record. -/
def freeDependent (record : Nat) (state : LdrState) : LdrState :=
  { state with
    dependents := Function.update state.dependents record none
    heap := state.heap.free record }

/-- The one module of a dependent node, with the checks that guard it. -/
def dependentModule (dependent : Nat) (state : LdrState) : Except Halt Nat :=
  match (state.ddagNodes dependent).modules with
  | [] => .error .invalidRead
  | [moduleEntry] =>
      if (state.entries moduleEntry).ddagNode ≠ dependent then .error .fastFail
      else if (state.ddagNodes dependent).incomingDependencies = 0 then .error .fastFail
      else .ok moduleEntry
  | _ :: _ :: _ => .error .fastFail

/-- One round of the outer do-while loop: the next `entry` and the state. -/
def freeDependency (globals : LdrGlobals) (fuel ddagNode head entry : Nat) (state : LdrState) :
    Except Halt (Nat × LdrState) :=
  match state.dependents entry with
  | none => .error .invalidRead
  | some record =>
    match dependentModule record.dependentDdagNode state with
    | .error halt => .error halt
    | .ok moduleEntry =>
      let first := (state.ddagNodes record.dependentDdagNode).incomingDependencies
      match unlinkIncoming ddagNode record.dependentDdagNode fuel first first state with
      | .error halt => .error halt
      | .ok state =>
        match releaseDependent globals moduleEntry state with
        | .error halt => .error halt
        | .ok state =>
          let next := record.nextDependentEntry
          let state := freeDependent (state.ddagNodes ddagNode).dependencies state
          .ok (next, modifyNode ddagNode
            (fun n => { n with dependencies := if next = head then 0 else next }) state)

/-- The outer do-while loop. -/
def freeDependencies (globals : LdrGlobals) (ddagNode head : Nat) :
    Nat → Nat → LdrState → Except Halt LdrState
  | 0, _, _ => .error .outOfFuel
  | fuel + 1, entry, state =>
    match freeDependency globals fuel ddagNode head entry state with
    | .error halt => .error halt
    | .ok (next, state) =>
        if next ≠ head then freeDependencies globals ddagNode head fuel next state else .ok state

def rtlFreeDependencies (globals : LdrGlobals) (fuel ldrEntry : Nat) (state : LdrState) :
    Except Halt LdrState :=
  let ddagNode := (state.entries ldrEntry).ddagNode
  let head := (state.ddagNodes ddagNode).dependencies
  if head = 0 then .ok state else freeDependencies globals ddagNode head fuel head state

end WinPolyfillLoader.LdrEntry
