import RequestAccess.Table

/-!
# Dynamic data in a cache scope

Dynamic data must not be used while something is being cached. A render keeps the first such use
and answers every later one with it.
-/

namespace RequestAccess

inductive CacheScope where
  | useCache
  | privateCache
  | unstableCache
deriving DecidableEq

namespace CacheScope

def title : CacheScope → String
  | useCache => "UseCache"
  | privateCache => "PrivateCache"
  | unstableCache => "UnstableCache"

/-- How a message speaks of the scope. -/
def phrase : CacheScope → String
  | useCache => "\"use cache\""
  | privateCache => "\"use cache\""
  | unstableCache => "a function cached with \"unstable_cache(...)\""

end CacheScope

/-- What was done with the data. -/
inductive CacheUse where
  | read
  /-- Draft mode was switched. -/
  | mutation
deriving DecidableEq

/-- The error for using dynamic data in a cache scope, with the work that built it. -/
structure UsageError where
  /-- The work that built the error. -/
  work : Key .work
  /-- How many errors that work had built before. -/
  serial : Nat
  use : CacheUse
  route : String
  expression : String
  scope : CacheScope
deriving DecidableEq

namespace UsageError

/-- What is wrong with the use. -/
def complaint : CacheUse → CacheScope → String → String
  | .read, _, expression =>
    ". Accessing dynamic data sources inside a cache scope is not supported. " ++
    "If you need this data inside a cached function use \"" ++ expression ++
    "\" outside of the cached function and pass the required dynamic data in as an argument."
  | .mutation, .unstableCache, _ => " but this is not supported."
  | .mutation, _, _ =>
    ". The enabled status of draftMode can be read in caches but you must not enable or disable " ++
    "draftMode inside a cache."

def message (e : UsageError) : String :=
  "Route " ++ e.route ++ " used \"" ++ e.expression ++ "\" inside " ++ e.scope.phrase ++
    complaint e.use e.scope e.expression

end UsageError

end RequestAccess
