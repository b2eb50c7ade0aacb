import Mathlib.Data.List.Infix
import Mathlib.Logic.Function.Basic
import SogeconApp.Library.Steps

/-!
# The service worker's caches

Source: `apps/web/public/sw.js` (install, activate, fetch, isStaticAsset, isImage, isAppIconAsset,
cacheFirst).

The origin of the worker is an argument. A cache is the list of its entries, matched as the Cache API
matches them: the query is a `GET` of the same URL, and the request of the entry had the same value in
each header that the response varies by. A request that the worker handles is in flight from its event
on, and what it awaits comes back in any order: the cache it opens, the network, and the `put` that
nobody waits for. The browser may drop all caches at any time, and other code of the origin, such as a
worker of another version, has caches under other names. What the network has answered to the worker
and what the worker has answered are kept as lists. Left out are the notifications.
-/

namespace SogeconApp.Source.ServiceWorker

open Library

/-! ## Requests and responses -/

structure Request where
  origin : String
  pathname : String
  search : String
  method : String
  mode : String
  headers : String → Option String

variable {β : Type}

/-- A response of the network with its body. -/
structure Response (β : Type) where
  status : Nat
  /-- The header names of `Vary`. -/
  vary : List String
  body : β
  deriving DecidableEq

def Response.ok (response : Response β) : Bool := 200 ≤ response.status ∧ response.status ≤ 299

/-! ## The Cache API -/

structure Entry (β : Type) where
  request : Request
  response : Response β

def sameUrl (left right : Request) : Bool :=
  left.origin = right.origin ∧ left.pathname = right.pathname ∧ left.search = right.search

/-- The query matches the cached entry. -/
def requestMatches (query : Request) (entry : Entry β) : Bool :=
  query.method = "GET" && sameUrl query entry.request &&
    entry.response.vary.all fun field =>
      field ≠ "*" && decide (query.headers field = entry.request.headers field)

/-- `cache.match`. -/
def cacheMatch (entries : List (Entry β)) (query : Request) : Option (Response β) :=
  (entries.find? (requestMatches query)).map (·.response)

/-- `cache.put`; `none` where it rejects. -/
def cachePut (entries : List (Entry β)) (request : Request) (response : Response β) :
    Option (List (Entry β)) :=
  if request.method ≠ "GET" ∨ response.status = 206 ∨ "*" ∈ response.vary then none
  else some ((entries.filter fun entry => !requestMatches request entry) ++ [⟨request, response⟩])

/-! ## sw.js -/

def offlineCache : String := "offline-shell-v3"

def staticCache : String := "static-v3"

def imageCache : String := "images-v3"

def validCaches : List String := [offlineCache, staticCache, imageCache]

/-- The request that the precaching adds and that a failed navigation looks for. -/
def offlineRequest (location : String) : Request where
  origin := location
  pathname := "/offline"
  search := ""
  method := "GET"
  mode := "cors"
  headers := fun _ => none

def endsWith (suffix pathname : String) : Bool := suffix.toList.isSuffixOf pathname.toList

def startsWith (start pathname : String) : Bool := start.toList.isPrefixOf pathname.toList

/-- `/\/_next\/static\//` or `/\.(js|css|woff2?)$/`. -/
def isStaticAsset (pathname : String) : Bool :=
  (pathname.toList.tails.any fun rest => "/_next/static/".toList.isPrefixOf rest) ||
    [".js", ".css", ".woff", ".woff2"].any fun suffix => endsWith suffix pathname

def isImage (pathname : String) : Bool :=
  ([".png", ".jpg", ".jpeg", ".gif", ".webp", ".avif", ".svg", ".ico"].any fun suffix =>
      endsWith suffix pathname) ||
    startsWith "/images/" pathname

def isAppIconAsset (pathname : String) : Bool :=
  startsWith "/icons/" pathname || pathname = "/favicon.ico" || pathname = "/favicon.svg"

inductive Route where
  /-- The worker leaves the request to the browser. -/
  | pass
  | navigation
  | cacheFirst (cacheName : String)
  deriving DecidableEq, Repr

/-- The listener for `fetch`. -/
def route (location : String) (request : Request) : Route :=
  if request.origin ≠ location then .pass
  else if request.method ≠ "GET" then .pass
  else if request.mode = "navigate" then .navigation
  else if isStaticAsset request.pathname then .cacheFirst staticCache
  else if isImage request.pathname then
    if isAppIconAsset request.pathname then .pass else .cacheFirst imageCache
  else .pass

/-! ## The worker -/

inductive Reply (β : Type) where
  | response (response : Response β)
  /-- `new Response('Network error', { status: 503 })`. -/
  | networkError
  /-- `Response.redirect(OFFLINE_URL, 302)`. -/
  | offlineRedirect
  /-- The promise of `respondWith` is rejected. -/
  | rejected
  deriving DecidableEq

inductive Phase (β : Type) where
  /-- `caches.open` and `cache.match` of `cacheFirst`. -/
  | looking (cacheName : String)
  | fetching (cacheName : String)
  /-- `cache.put`, with the response already on its way to the page. -/
  | putting (cacheName : String) (response : Response β)
  | navigating
  /-- The offline page is looked for. -/
  | falling
  /-- `cache.add` of the offline page. -/
  | adding

structure Flight (β : Type) where
  request : Request
  phase : Phase β

structure Worker (β : Type) where
  caches : String → Option (List (Entry β))
  flights : Nat → Option (Flight β)
  answered : List (Request × Response β)
  served : List (Request × Reply β)

inductive Event (β : Type) where
  | install (id : Nat)
  | activate
  | fetch (id : Nat) (request : Request)
  /-- The cache that a flight waits for, opened and matched. -/
  | look (id : Nat)
  | lookFails (id : Nat)
  | network (id : Nat) (response : Response β)
  | networkFails (id : Nat)
  | put (id : Nat)
  | putFails (id : Nat)
  | evict
  | outside (cacheName : String) (entries : Option (List (Entry β)))

namespace Worker

variable (worker : Worker β) (id : Nat)

def launch (flight : Flight β) : Worker β :=
  { worker with flights := Function.update worker.flights id (some flight) }

def land : Worker β := { worker with flights := Function.update worker.flights id none }

def serve (request : Request) (reply : Reply β) : Worker β :=
  { worker with served := worker.served ++ [(request, reply)] }

def store (cacheName : String) (entries : List (Entry β)) : Worker β :=
  { worker with caches := Function.update worker.caches cacheName (some entries) }

/-- The answer of the network to a request of the worker. -/
def hear (request : Request) (response : Response β) : Worker β :=
  { worker with answered := worker.answered ++ [(request, response)] }

/-- `caches.open`, which makes a cache that is not there. -/
def entriesOf (cacheName : String) : List (Entry β) := (worker.caches cacheName).getD []

/-- `caches.open` and `cache.match`. -/
def look (location : String) (flight : Flight β) : Option (Worker β) :=
  match flight.phase with
  | .looking cacheName =>
    let opened := worker.store cacheName (worker.entriesOf cacheName)
    some <|
      match cacheMatch (worker.entriesOf cacheName) flight.request with
      | some cached => (opened.land id).serve flight.request (.response cached)
      | none => opened.launch id { flight with phase := .fetching cacheName }
  | .falling =>
    let opened := worker.store offlineCache (worker.entriesOf offlineCache)
    some <| (opened.land id).serve flight.request <|
      match cacheMatch (worker.entriesOf offlineCache) (offlineRequest location) with
      | some cached => .response cached
      | none => .offlineRedirect
  | _ => none

def lookFails (flight : Flight β) : Option (Worker β) :=
  match flight.phase with
  | .looking _ | .falling => some ((worker.land id).serve flight.request .rejected)
  | _ => none

/-- The response of a `fetch`. -/
def network (flight : Flight β) (response : Response β) : Option (Worker β) :=
  let heard := worker.hear flight.request response
  match flight.phase with
  | .fetching cacheName =>
    let next :=
      if response.ok then heard.launch id { flight with phase := .putting cacheName response }
      else heard.land id
    some (next.serve flight.request (.response response))
  | .navigating => some ((heard.land id).serve flight.request (.response response))
  | .adding =>
    some <|
      if response.ok then heard.launch id { flight with phase := .putting offlineCache response }
      else heard.land id
  | _ => none

def networkFails (flight : Flight β) : Option (Worker β) :=
  match flight.phase with
  | .fetching _ => some ((worker.land id).serve flight.request .networkError)
  | .navigating => some (worker.launch id { flight with phase := .falling })
  | .adding => some (worker.land id)
  | _ => none

/-- A cache that has been dropped meanwhile is no longer found under its name. -/
def put (flight : Flight β) : Option (Worker β) :=
  match flight.phase with
  | .putting cacheName response =>
    some <|
      match (worker.caches cacheName).bind fun entries => cachePut entries flight.request response with
      | some entries => (worker.land id).store cacheName entries
      | none => worker.land id
  | _ => none

def putFails (flight : Flight β) : Option (Worker β) :=
  match flight.phase with
  | .putting _ _ => some (worker.land id)
  | _ => none

/-- What happens next to a flight, if it is one. -/
def onFlight (next : Flight β → Option (Worker β)) : Option (Worker β) := (worker.flights id).bind next

def step (location : String) : Event β → Option (Worker β)
  | .install id =>
    if (worker.flights id).isSome then none
    else some ((worker.store offlineCache (worker.entriesOf offlineCache)).launch id
      { request := offlineRequest location, phase := .adding })
  | .activate =>
    some { worker with caches := fun cacheName =>
      if cacheName ∈ validCaches then worker.caches cacheName else none }
  | .fetch id request =>
    if (worker.flights id).isSome then none
    else
      match route location request with
      | .pass => some worker
      | .navigation => some (worker.launch id { request, phase := .navigating })
      | .cacheFirst cacheName => some (worker.launch id { request, phase := .looking cacheName })
  | .look id => worker.onFlight id (worker.look id location)
  | .lookFails id => worker.onFlight id (worker.lookFails id)
  | .network id response => worker.onFlight id fun flight => worker.network id flight response
  | .networkFails id => worker.onFlight id (worker.networkFails id)
  | .put id => worker.onFlight id (worker.put id)
  | .putFails id => worker.onFlight id (worker.putFails id)
  | .evict => some { worker with caches := fun _ => none }
  | .outside cacheName entries =>
    if cacheName ∈ validCaches then none
    else some { worker with caches := Function.update worker.caches cacheName entries }

def run (location : String) (events : List (Event β)) : Option (Worker β) :=
  runSteps (fun worker => worker.step location) worker events

end Worker

/-- A worker whose caches nobody has filled. -/
def started : Worker β where
  caches := fun _ => none
  flights := fun _ => none
  answered := []
  served := []

end SogeconApp.Source.ServiceWorker
