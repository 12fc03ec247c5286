import RequestAccess.Json

/-! # Route segments -/

namespace RequestAccess

/-- How a route opts in or out of dynamic rendering. -/
inductive DynamicBehavior where
  /-- Static unless dynamic data is used. -/
  | auto
  | forceDynamic
  /-- Dynamic data reads as empty. -/
  | forceStatic
  /-- The static render fails if dynamic data is used. -/
  | error
deriving DecidableEq

namespace DynamicBehavior

def all : List DynamicBehavior := [auto, forceDynamic, forceStatic, error]

/-- As written in scenario files. -/
def name : DynamicBehavior → String
  | auto => "auto"
  | forceDynamic => "force-dynamic"
  | forceStatic => "force-static"
  | error => "error"

/-- As shown to a reader. -/
def title : DynamicBehavior → String
  | auto => "Auto"
  | forceDynamic => "ForceDynamic"
  | forceStatic => "ForceStatic"
  | error => "Error"

end DynamicBehavior

structure RouteConfig where
  path : String
  dynamic : DynamicBehavior := .auto
  /-- Seconds; `none` is never. -/
  revalidate : Option UInt64 := none
deriving DecidableEq

namespace RouteConfig

def forceStatic (r : RouteConfig) : Bool := r.dynamic == .forceStatic

def dynamicShouldError (r : RouteConfig) : Bool := r.dynamic == .error

def toJson (r : RouteConfig) : Json :=
  .object [("path", .text r.path), ("dynamic", .text r.dynamic.name),
    ("revalidate", .ofOption (fun s => .int s.toNat) r.revalidate)]

end RouteConfig

end RequestAccess
