import RequestAccess.DryRun
import RequestAccess.Handle
import RequestAccess.Phase

/-!
# Work units

A work unit is one phase of rendering. It remembers the handles it gave.
-/

namespace RequestAccess

/-! ## Live requests -/

/-- A request that is being answered. -/
structure LiveRequest where
  cookies : Key .jar
  /-- The cookies of the response. -/
  mutableCookies : Key .jar
  headers : Key .headers
  draft : Option (Key .draft) := none
  phase : RequestPhase := .render
  dryRun : DryRun := .inactive
  /-- Whether dynamic data was used. -/
  usedDynamic : Bool := false

/-- The cookies that the request sees in its phase. -/
def LiveRequest.visibleCookies (r : LiveRequest) : Key .jar :=
  match r.phase with
  | .action => r.mutableCookies
  | .render | .after => r.cookies

/-! ## Prerenders -/

/-- A prerender that stops where dynamic data is needed. -/
structure Prerender where
  signal : Key .signal
  log : Option (Key .log) := none

/-- The period of a page in seconds. The greatest number stands for never. -/
def periodOf (revalidate : Option UInt64) : Option UInt64 :=
  match revalidate with
  | some seconds => if seconds = 0xFFFFFFFFFFFFFFFF then none else some seconds
  | none => none

/-! ## Units -/

/-- What a unit has in its phase. -/
inductive Variant where
  | request (request : LiveRequest)
  | prerender (p : Prerender)
  | prerenderClient (p : Prerender)
  | prerenderRuntime (p : Prerender)
  /-- A prerender whose branches can be left for later. -/
  | prerenderPartial (log : Key .log)
  /-- Static generation that gives up as a whole. -/
  | prerenderLegacy (revalidate : Option UInt64)
  | cache (forwarded : Option (Key .draft))
  /-- A cache scope that may read the request. -/
  | privateCache (cookies : Key .jar) (headers : Key .headers) (forwarded : Option (Key .draft))
  | unstableCache

namespace Variant

def phase : Variant → Phase
  | request _ => .request
  | prerender _ => .prerender
  | prerenderClient _ => .prerenderClient
  | prerenderRuntime _ => .prerenderRuntime
  | prerenderPartial _ => .prerenderPartial
  | prerenderLegacy _ => .prerenderLegacy
  | cache _ => .cache
  | privateCache .. => .privateCache
  | unstableCache => .unstableCache

/-- The draft mode that was forwarded into a cache scope. -/
def forwarded? : Variant → Option (Key .draft)
  | cache forwarded => forwarded
  | privateCache _ _ forwarded => forwarded
  | _ => none

def isAfter : Variant → Bool
  | request r => r.phase == .after
  | _ => false

/-- The variant without what a render does to it. -/
def asMade : Variant → Variant
  | request q => request { q with dryRun := .inactive, usedDynamic := false }
  | prerenderLegacy _ => prerenderLegacy none
  | v => v

/-- Changes the live request, if it is one. -/
def mapRequest (f : LiveRequest → LiveRequest) : Variant → Variant
  | request r => request (f r)
  | v => v

end Variant

/-- A unit of work: what it is in its phase, and the handles that it remembers. -/
structure WorkUnit where
  variant : Variant
  handles : Registry (Resource × MemoKey) Handle := .empty
  /-- Whether its caller still has it. -/
  alive : Bool := true

instance : Inhabited WorkUnit := ⟨{ variant := .unstableCache, alive := false }⟩

namespace WorkUnit

/-- How many handles the unit remembers. -/
def remembered (u : WorkUnit) : Nat := u.handles.size

def describe (u : WorkUnit) : String :=
  "WorkUnitContext \x7b kind: \"" ++ u.variant.phase.name ++
    "\", handles: " ++ toString u.remembered ++
    " \x7d"

end WorkUnit

end RequestAccess
