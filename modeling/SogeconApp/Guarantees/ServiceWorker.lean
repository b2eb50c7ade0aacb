import SogeconApp.Source.ServiceWorker

/-!
# What the service worker stores and serves

Its caches hold successful answers of the network, each under the request that it answered: static assets
and images of the worker's own origin, and the offline page. Whatever else the origin serves, the API
among it, is neither stored nor answered from a cache. What is stored is pinned: until the browser drops
the caches, every request that finds it gets it, and the network is not asked again.
-/

namespace SogeconApp.Guarantees.ServiceWorker

open Library Source.ServiceWorker

variable {β : Type} {location : String} {request query : Request} {cacheName : String} {worker after : Worker β}
  {id : Nat} {event : Event β} {events : List (Event β)} {response : Response β} {reply : Reply β}
  {answered : List (Request × Response β)} {flight : Flight β} {entry : Entry β} {entries : List (Entry β)}

/-! ## What is cached at all -/

/-- A request whose answer the worker may store: of its origin, for a static asset or an image. -/
structure Cacheable (location cacheName : String) (request : Request) : Prop where
  origin : request.origin = location
  method : request.method = "GET"
  mode : request.mode ≠ "navigate"
  path : cacheName = staticCache ∧ isStaticAsset request.pathname = true ∨
    cacheName = imageCache ∧ isStaticAsset request.pathname = false ∧ isImage request.pathname = true ∧
      isAppIconAsset request.pathname = false

/-- A request that is answered from a cache first is one whose answer may be stored there. -/
theorem route_cacheFirst (cached : route location request = .cacheFirst cacheName) :
    Cacheable location cacheName request := by
  unfold route at cached
  split at cached
  · cases cached
  · next origin =>
    split at cached
    · cases cached
    · next method =>
      split at cached
      · cases cached
      · next mode =>
        split at cached
        · next asset =>
          cases cached
          exact ⟨not_not.mp origin, not_not.mp method, mode, .inl ⟨rfl, asset⟩⟩
        · next other =>
          split at cached
          · next image =>
            split at cached
            · cases cached
            · next icon =>
              cases cached
              exact ⟨not_not.mp origin, not_not.mp method, mode,
                .inr ⟨rfl, Bool.not_eq_true _ ▸ other, image, Bool.not_eq_true _ ▸ icon⟩⟩
          · cases cached

/-- Such a cache is one of the worker's, and not that of the offline page. -/
theorem Cacheable.valid (cacheable : Cacheable location cacheName request) :
    cacheName ∈ validCaches ∧ cacheName ≠ offlineCache := by
  rcases cacheable.path with ⟨rfl, -⟩ | ⟨rfl, -⟩ <;> decide

/-- The offline page itself is neither a static asset nor an image. -/
theorem offline_not_cached (location : String) :
    ¬Cacheable location cacheName (offlineRequest location) := by
  intro cacheable
  have asset : isStaticAsset "/offline" = false := by decide
  have image : isImage "/offline" = false := by decide
  rcases cacheable.path with ⟨-, is⟩ | ⟨-, -, is, -⟩
  · cases asset.symm.trans is
  · cases image.symm.trans is

/-- The requests whose answers a cache of the worker may hold. -/
def Belongs (location cacheName : String) (request : Request) : Prop :=
  cacheName = offlineCache ∧ request = offlineRequest location ∨ Cacheable location cacheName request

/-! ## Soundness -/

/-- An entry of a cache of the worker: a successful answer of the network to the request of the entry. -/
structure Legit (location : String) (answered : List (Request × Response β)) (cacheName : String)
    (entry : Entry β) : Prop where
  belongs : Belongs location cacheName entry.request
  answered : (entry.request, entry.response) ∈ answered
  ok : entry.response.ok = true

/-- What the worker answers: what the network has answered to the same request, or an entry that matches
it, or the offline page where a navigation failed, or an error. -/
def ServedFrom (location : String) (answered : List (Request × Response β)) (request : Request) :
    Reply β → Prop
  | .response response =>
    (route location request ≠ .pass ∧ (request, response) ∈ answered) ∨
      (∃ cacheName cached, Cacheable location cacheName request ∧
        Legit location answered cacheName ⟨cached, response⟩ ∧
        requestMatches request (⟨cached, response⟩ : Entry β) = true) ∨
      route location request = .navigation ∧
        Legit location answered offlineCache ⟨offlineRequest location, response⟩
  | .networkError => ∃ cacheName, Cacheable location cacheName request
  | .offlineRedirect => route location request = .navigation
  | .rejected => route location request ≠ .pass

def InFlight (location : String) (answered : List (Request × Response β)) (flight : Flight β) : Prop :=
  match flight.phase with
  | .looking cacheName | .fetching cacheName => route location flight.request = .cacheFirst cacheName
  | .putting cacheName response => Legit location answered cacheName ⟨flight.request, response⟩
  | .navigating | .falling => route location flight.request = .navigation
  | .adding => flight.request = offlineRequest location

structure Sound (location : String) (worker : Worker β) : Prop where
  caches : ∀ cacheName ∈ validCaches, ∀ entries, worker.caches cacheName = some entries →
    ∀ entry ∈ entries, Legit location worker.answered cacheName entry
  flights : ∀ id flight, worker.flights id = some flight → InFlight location worker.answered flight
  served : ∀ request reply, (request, reply) ∈ worker.served →
    ServedFrom location worker.answered request reply

/-- A worker that has just started has stored and served nothing. -/
theorem started_sound : Sound location (started : Worker β) where
  caches _ _ _ same := nomatch same
  flights _ _ same := nomatch same
  served _ _ member := nomatch member

/-- An entry stays legitimate when the network answers more. -/
theorem Legit.mono {more : List (Request × Response β)} (legit : Legit location answered cacheName entry)
    (grows : answered ⊆ more) : Legit location more cacheName entry :=
  ⟨legit.belongs, grows legit.answered, legit.ok⟩

theorem InFlight.mono {more : List (Request × Response β)} (inFlight : InFlight location answered flight)
    (grows : answered ⊆ more) : InFlight location more flight := by
  obtain ⟨request, phase⟩ := flight
  cases phase with
  | putting cacheName response => exact Legit.mono inFlight grows
  | _ => exact inFlight

theorem ServedFrom.mono {more : List (Request × Response β)}
    (served : ServedFrom location answered request reply) (grows : answered ⊆ more) :
    ServedFrom location more request reply := by
  cases reply with
  | response response =>
    rcases served with ⟨handled, own⟩ | ⟨cacheName, cached, cacheable, legit, found⟩ | ⟨navigation, legit⟩
    · exact .inl ⟨handled, grows own⟩
    · exact .inr (.inl ⟨cacheName, cached, cacheable, legit.mono grows, found⟩)
    · exact .inr (.inr ⟨navigation, legit.mono grows⟩)
  | _ => exact served

/-- A successful answer may be on its way into the cache of its request. -/
theorem Legit.putting (legit : Legit location answered cacheName ⟨request, response⟩) :
    InFlight location answered ⟨request, .putting cacheName response⟩ := legit

namespace Sound

/-- A flight may begin that is fit for its phase. -/
theorem launch (sound : Sound location worker) (inFlight : InFlight location worker.answered flight) :
    Sound location (worker.launch id flight) where
  caches := sound.caches
  flights other flight' same := by
    simp only [Worker.launch, Function.update_apply] at same
    split at same
    · cases same
      exact inFlight
    · exact sound.flights other flight' same
  served := sound.served

theorem land (sound : Sound location worker) : Sound location (worker.land id) where
  caches := sound.caches
  flights other flight same := by
    simp only [Worker.land, Function.update_apply] at same
    split at same
    · cases same
    · exact sound.flights other flight same
  served := sound.served

/-- A reply may be given that comes from where it should. -/
theorem serve (sound : Sound location worker) (served : ServedFrom location worker.answered request reply) :
    Sound location (worker.serve request reply) where
  caches := sound.caches
  flights := sound.flights
  served request' reply' member := by
    rcases List.mem_append.mp member with before | new
    · exact sound.served request' reply' before
    · cases List.mem_singleton.mp new
      exact served

theorem store (sound : Sound location worker)
    (legit : ∀ entry ∈ entries, Legit location worker.answered cacheName entry) :
    Sound location (worker.store cacheName entries) where
  caches other valid entries' same := by
    simp only [Worker.store, Function.update_apply] at same
    split at same
    · next here =>
      cases same
      exact here ▸ legit
    · exact sound.caches other valid entries' same
  flights := sound.flights
  served := sound.served

theorem hear (sound : Sound location worker) : Sound location (worker.hear request response) where
  caches cacheName valid entries same entry member :=
    (sound.caches cacheName valid entries same entry member).mono (List.subset_append_left _ _)
  flights id flight same := (sound.flights id flight same).mono (List.subset_append_left _ _)
  served request' reply member := (sound.served request' reply member).mono (List.subset_append_left _ _)

/-- What a cache of the worker holds is legitimate. -/
theorem entriesOf (sound : Sound location worker) (valid : cacheName ∈ validCaches) :
    ∀ entry ∈ worker.entriesOf cacheName, Legit location worker.answered cacheName entry := by
  intro entry member
  unfold Worker.entriesOf at member
  cases held : worker.caches cacheName with
  | none =>
    rw [held] at member
    cases member
  | some entries =>
    rw [held] at member
    exact sound.caches cacheName valid entries held entry member

/-- A cache that is opened has the entries that it had. -/
theorem opened (sound : Sound location worker) (valid : cacheName ∈ validCaches) :
    Sound location (worker.store cacheName (worker.entriesOf cacheName)) :=
  sound.store (sound.entriesOf valid)

end Sound

/-- What a look-up answers is the response of an entry that matches. -/
theorem cacheMatch_some (found : cacheMatch entries query = some response) :
    ∃ cached, (⟨cached, response⟩ : Entry β) ∈ entries ∧
      requestMatches query (⟨cached, response⟩ : Entry β) = true := by
  obtain ⟨entry, first, rfl⟩ := Option.map_eq_some_iff.mp found
  exact ⟨entry.request, List.mem_of_find?_eq_some first, List.find?_some first⟩

/-- A put replaces the entries that its request matches. -/
theorem cachePut_some {kept : List (Entry β)} (put : cachePut entries request response = some kept) :
    kept = (entries.filter fun entry => !requestMatches request entry) ++ [⟨request, response⟩] := by
  unfold cachePut at put
  split at put
  · cases put
  · exact (Option.some.inj put).symm

/-! ## Each event -/

/-- A look into the cache answers with an entry, or goes on to the network. -/
theorem look_sound (sound : Sound location worker) (inFlight : InFlight location worker.answered flight)
    (steps : worker.look id location flight = some after) : Sound location after := by
  obtain ⟨request, phase⟩ := flight
  cases phase with
  | looking cacheName =>
    have cacheable := route_cacheFirst inFlight
    have opened := sound.opened cacheable.valid.1
    simp only [Worker.look, Option.some.injEq] at steps
    subst after
    split
    · next cached hit =>
      obtain ⟨under, member, found⟩ := cacheMatch_some hit
      refine opened.land.serve (.inr (.inl ⟨cacheName, under, cacheable, ?_, found⟩))
      exact sound.entriesOf cacheable.valid.1 _ member
    · exact opened.launch inFlight
  | falling =>
    have valid : offlineCache ∈ validCaches := by decide
    have opened := sound.opened valid
    simp only [Worker.look, Option.some.injEq] at steps
    subst after
    refine opened.land.serve ?_
    split
    · next cached hit =>
      obtain ⟨under, member, found⟩ := cacheMatch_some hit
      have legit := sound.entriesOf valid _ member
      have page : under = offlineRequest location := by
        rcases legit.belongs with ⟨-, page⟩ | cacheable
        · exact page
        · exact absurd rfl cacheable.valid.2
      exact .inr (.inr ⟨inFlight, page ▸ legit⟩)
    · exact inFlight
  | _ => cases steps

theorem lookFails_sound (sound : Sound location worker) (inFlight : InFlight location worker.answered flight)
    (steps : worker.lookFails id flight = some after) : Sound location after := by
  obtain ⟨request, phase⟩ := flight
  cases phase with
  | looking cacheName =>
    cases steps
    exact sound.land.serve fun pass => nomatch pass.symm.trans inFlight
  | falling =>
    cases steps
    exact sound.land.serve fun pass => nomatch pass.symm.trans inFlight
  | _ => cases steps

/-- An answer of the network is served, and a successful one is put into the cache. -/
theorem network_sound (sound : Sound location worker) (inFlight : InFlight location worker.answered flight)
    (steps : worker.network id flight response = some after) : Sound location after := by
  obtain ⟨request, phase⟩ := flight
  have heard : Sound location (worker.hear request response) := sound.hear
  have own : (request, response) ∈ (worker.hear request response).answered := by simp [Worker.hear]
  cases phase with
  | fetching cacheName =>
    have handled : route location request ≠ .pass := fun pass => nomatch pass.symm.trans inFlight
    simp only [Worker.network, Option.some.injEq] at steps
    subst after
    split
    · next ok =>
      have legit : Legit location (worker.hear request response).answered cacheName ⟨request, response⟩ :=
        ⟨.inr (route_cacheFirst inFlight), own, ok⟩
      exact (heard.launch legit.putting).serve (.inl ⟨handled, own⟩)
    · exact heard.land.serve (.inl ⟨handled, own⟩)
  | navigating =>
    cases steps
    have handled : route location request ≠ .pass := fun pass => nomatch pass.symm.trans inFlight
    exact heard.land.serve (.inl ⟨handled, own⟩)
  | adding =>
    simp only [Worker.network, Option.some.injEq] at steps
    subst after
    split
    · next ok =>
      have legit : Legit location (worker.hear request response).answered offlineCache ⟨request, response⟩ :=
        ⟨.inl ⟨rfl, inFlight⟩, own, ok⟩
      exact heard.launch legit.putting
    · exact heard.land
  | _ => cases steps

/-- Without the network the cache is asked again, or the offline page for a navigation. -/
theorem networkFails_sound (sound : Sound location worker) (inFlight : InFlight location worker.answered flight)
    (steps : worker.networkFails id flight = some after) : Sound location after := by
  obtain ⟨request, phase⟩ := flight
  cases phase with
  | fetching cacheName =>
    cases steps
    exact sound.land.serve ⟨cacheName, route_cacheFirst inFlight⟩
  | navigating =>
    cases steps
    exact sound.launch inFlight
  | adding =>
    cases steps
    exact sound.land
  | _ => cases steps

/-- A put stores the answer of its own request. -/
theorem put_sound (sound : Sound location worker) (inFlight : InFlight location worker.answered flight)
    (steps : worker.put id flight = some after) : Sound location after := by
  obtain ⟨request, phase⟩ := flight
  cases phase with
  | putting cacheName response =>
    simp only [Worker.put, Option.some.injEq] at steps
    subst after
    split
    · next kept done =>
      obtain ⟨entries, held, put⟩ := Option.bind_eq_some_iff.mp done
      have legit : Legit location worker.answered cacheName ⟨request, response⟩ := inFlight
      have valid : cacheName ∈ validCaches := by
        rcases legit.belongs with ⟨rfl, -⟩ | cacheable
        · decide
        · exact cacheable.valid.1
      refine sound.land.store fun entry member => ?_
      rw [cachePut_some put] at member
      rcases List.mem_append.mp member with before | new
      · exact sound.caches cacheName valid entries held entry (List.mem_filter.mp before).1
      · cases List.mem_singleton.mp new
        exact legit
    · exact sound.land
  | _ => cases steps

theorem putFails_sound (sound : Sound location worker) (steps : worker.putFails id flight = some after) :
    Sound location after := by
  unfold Worker.putFails at steps
  split at steps
  · cases steps
    exact sound.land
  · cases steps

theorem step_sound (sound : Sound location worker) (steps : worker.step location event = some after) :
    Sound location after := by
  -- What comes back to a flight finds it as it was left.
  have flying {id : Nat} {next : Flight β → Option (Worker β)} (steps : worker.onFlight id next = some after) :
      ∃ flight, InFlight location worker.answered flight ∧ next flight = some after := by
    obtain ⟨flight, found, goes⟩ := Option.bind_eq_some_iff.mp steps
    exact ⟨flight, sound.flights id flight found, goes⟩
  cases event with
  | install id =>
    obtain ⟨-, ⟨⟩⟩ := Option.ite_none_left_eq_some.mp steps
    exact (sound.opened (by decide)).launch rfl
  | activate =>
    cases steps
    refine ⟨fun cacheName valid entries same => ?_, sound.flights, sound.served⟩
    exact sound.caches cacheName valid entries (by simpa [valid] using same)
  | fetch id request =>
    obtain ⟨-, goes⟩ := Option.ite_none_left_eq_some.mp steps
    split at goes
    · cases goes
      exact sound
    · next navigation =>
      cases goes
      exact sound.launch navigation
    · next cacheName cached =>
      cases goes
      exact sound.launch cached
  | look id =>
    obtain ⟨flight, inFlight, goes⟩ := flying steps
    exact look_sound sound inFlight goes
  | lookFails id =>
    obtain ⟨flight, inFlight, goes⟩ := flying steps
    exact lookFails_sound sound inFlight goes
  | network id response =>
    obtain ⟨flight, inFlight, goes⟩ := flying steps
    exact network_sound sound inFlight goes
  | networkFails id =>
    obtain ⟨flight, inFlight, goes⟩ := flying steps
    exact networkFails_sound sound inFlight goes
  | put id =>
    obtain ⟨flight, inFlight, goes⟩ := flying steps
    exact put_sound sound inFlight goes
  | putFails id =>
    obtain ⟨flight, -, goes⟩ := flying steps
    exact putFails_sound sound goes
  | evict =>
    cases steps
    exact ⟨fun _ _ _ same => (nomatch same), sound.flights, sound.served⟩
  | outside cacheName entries =>
    obtain ⟨foreign, ⟨⟩⟩ := Option.ite_none_left_eq_some.mp steps
    refine ⟨fun other valid entries' same => ?_, sound.flights, sound.served⟩
    have apart : other ≠ cacheName := fun equal => foreign (equal ▸ valid)
    exact sound.caches other valid entries' (by simpa only [Function.update_of_ne apart] using same)

theorem run_sound (sound : Sound location worker) (runs : worker.run location events = some after) :
    Sound location after := by
  have free : Throughout (fun worker => worker.step location) (fun _ _ => True) worker events :=
    .of_forall fun _ _ _ => trivial
  exact free.keeps (I := Sound location) (fun held _ steps => step_sound held steps) sound runs

/-- In every order of the worker's requests, of what comes back to them, of installations, activations
and of the browser dropping its caches: a cache of the worker holds only successful answers of the
network to static assets and images of its origin, or to the offline page; and what the worker answers is
the network's answer to that request, an entry that matches it, the offline page where a navigation
failed, or an error, and never an answer to a request that it leaves to the browser. -/
theorem stored_and_served (runs : (started : Worker β).run location events = some after) :
    (∀ cacheName ∈ validCaches, ∀ entries, after.caches cacheName = some entries →
      ∀ entry ∈ entries, Legit location after.answered cacheName entry) ∧
    ∀ request reply, (request, reply) ∈ after.served →
      ServedFrom location after.answered request reply := by
  have sound := run_sound started_sound runs
  exact ⟨sound.caches, sound.served⟩

def pictureRequest : Request where
  origin := "https://a"
  pathname := "/media/a.png"
  search := ""
  method := "GET"
  mode := "no-cors"
  headers := fun _ => none

def picture : Response Unit where
  status := 200
  vary := []
  body := ()

theorem picture_route : route "https://a" pictureRequest = .cacheFirst imageCache := by decide

/-- A picture that is fetched and put into the cache. -/
def pictureStored : List (Event Unit) := [.fetch 0 pictureRequest, .look 0, .network 0 picture, .put 0]

theorem stored_and_served_picture :
    ∃ after, (started : Worker Unit).run "https://a" pictureStored = some after ∧
      after.caches imageCache = some [⟨pictureRequest, picture⟩] ∧
      ServedFrom "https://a" after.answered pictureRequest (.response picture) := by
  have sound := stored_and_served (rfl : (started : Worker Unit).run "https://a" pictureStored = some _)
  exact ⟨_, rfl, rfl, sound.2 pictureRequest (.response picture) (List.mem_singleton.mpr rfl)⟩

/-! ## What is stored is pinned -/

/-- The flight may still replace entries of the cache. -/
def MayPut (cacheName : String) : Phase β → Prop
  | .fetching other | .putting other _ => other = cacheName
  | .adding => cacheName = offlineCache
  | _ => False

/-- The first entry that the query finds, which nothing in flight replaces. -/
structure Pinned (worker : Worker β) (cacheName : String) (query : Request) (entry : Entry β) : Prop where
  found : (worker.entriesOf cacheName).find? (requestMatches query) = some entry
  quiet : ∀ id flight, worker.flights id = some flight → MayPut cacheName flight.phase →
    requestMatches flight.request entry = false

/-- The entry is pinned, and since the worker was as before, it has answered the query with it alone, and
the network has not been asked. -/
structure Held (before worker : Worker β) (cacheName : String) (query : Request) (entry : Entry β) : Prop where
  pinned : Pinned worker cacheName query entry
  served : ∃ new, worker.served = before.served ++ new ∧
    ∀ reply, (query, reply) ∈ new → reply = .response entry.response ∨ reply = .rejected
  answered : ∃ new, worker.answered = before.answered ++ new ∧ ∀ response, (query, response) ∉ new

theorem Pinned.held (pinned : Pinned worker cacheName query entry) :
    Held worker worker cacheName query entry where
  pinned := pinned
  served := ⟨[], by simp, by simp⟩
  answered := ⟨[], by simp, by simp⟩

/-- The pinned entry is one that the query matches. -/
theorem Pinned.hit (pinned : Pinned worker cacheName query entry) : requestMatches query entry = true :=
  List.find?_some pinned.found

/-- A put of another request leaves the first entry that the query finds. -/
theorem find?_put {kept : List (Entry β)} (found : entries.find? (requestMatches query) = some entry)
    (apart : requestMatches request entry = false) (put : cachePut entries request response = some kept) :
    kept.find? (requestMatches query) = some entry := by
  rw [cachePut_some put, List.find?_append]
  have still : (entries.filter fun entry => !requestMatches request entry).find? (requestMatches query) =
      some entry := by
    obtain ⟨hit, before, rest, rfl, first⟩ := List.find?_eq_some_iff_append.mp found
    refine List.find?_eq_some_iff_append.mpr ⟨hit, before.filter fun entry => !requestMatches request entry,
      rest.filter fun entry => !requestMatches request entry, ?_, fun other member => ?_⟩
    · rw [List.filter_append, List.filter_cons_of_pos (by simpa using apart)]
    · exact first other (List.mem_filter.mp member).1
  rw [still]
  rfl

@[simp] theorem entriesOf_store (other : String) :
    (worker.store other entries).entriesOf cacheName =
      if cacheName = other then entries else worker.entriesOf cacheName := by
  simp only [Worker.entriesOf, Worker.store, Function.update_apply]
  split <;> rfl

namespace Held

variable {before : Worker β}

theorem launch (held : Held before worker cacheName query entry)
    (quiet : MayPut cacheName flight.phase → requestMatches flight.request entry = false) :
    Held before (worker.launch id flight) cacheName query entry where
  pinned :=
    { found := held.pinned.found
      quiet := fun other flight' same may => by
        simp only [Worker.launch, Function.update_apply] at same
        split at same
        · cases same
          exact quiet may
        · exact held.pinned.quiet other flight' same may }
  served := held.served
  answered := held.answered

theorem land (held : Held before worker cacheName query entry) :
    Held before (worker.land id) cacheName query entry where
  pinned :=
    { found := held.pinned.found
      quiet := fun other flight same may => by
        simp only [Worker.land, Function.update_apply] at same
        split at same
        · cases same
        · exact held.pinned.quiet other flight same may }
  served := held.served
  answered := held.answered

theorem serve (held : Held before worker cacheName query entry)
    (fits : request = query → reply = .response entry.response ∨ reply = .rejected) :
    Held before (worker.serve request reply) cacheName query entry where
  pinned := ⟨held.pinned.found, held.pinned.quiet⟩
  served := by
    obtain ⟨new, same, all⟩ := held.served
    refine ⟨new ++ [(request, reply)], by simp [Worker.serve, same], fun other member => ?_⟩
    rcases List.mem_append.mp member with earlier | last
    · exact all other earlier
    · cases List.mem_singleton.mp last
      exact fits rfl
  answered := held.answered

theorem hear (held : Held before worker cacheName query entry) (other : request ≠ query) :
    Held before (worker.hear request response) cacheName query entry where
  pinned := ⟨held.pinned.found, held.pinned.quiet⟩
  served := held.served
  answered := by
    obtain ⟨new, same, none_⟩ := held.answered
    refine ⟨new ++ [(request, response)], by simp [Worker.hear, same], fun answer member => ?_⟩
    rcases List.mem_append.mp member with earlier | last
    · exact none_ answer earlier
    · cases List.mem_singleton.mp last
      exact other rfl

theorem store {other : String} (held : Held before worker cacheName query entry)
    (found : cacheName = other → entries.find? (requestMatches query) = some entry) :
    Held before (worker.store other entries) cacheName query entry where
  pinned :=
    { found := by
        rw [entriesOf_store]
        split
        · next same => exact found same
        · exact held.pinned.found
      quiet := held.pinned.quiet }
  served := held.served
  answered := held.answered

theorem opened (held : Held before worker cacheName query entry) (other : String) :
    Held before (worker.store other (worker.entriesOf other)) cacheName query entry :=
  held.store fun same => same ▸ held.pinned.found

/-- A flight that asks the network or puts into the cache is not one of the query. -/
theorem not_query (held : Held before worker cacheName query entry) (flies : worker.flights id = some flight)
    (may : MayPut cacheName flight.phase) : flight.request ≠ query := by
  rintro rfl
  have apart := held.pinned.quiet id flight flies may
  rw [held.pinned.hit] at apart
  cases apart

end Held

section Steps

variable {before : Worker β} (held : Held before worker cacheName query entry)
  (cached : route location query = .cacheFirst cacheName)
include held cached

/-- The query is answered with the entry, and any other look leaves it. -/
theorem look_held (inFlight : InFlight location worker.answered flight)
    (steps : worker.look id location flight = some after) : Held before after cacheName query entry := by
  obtain ⟨request, phase⟩ := flight
  cases phase with
  | looking other =>
    have opened := held.opened other
    simp only [Worker.look, Option.some.injEq] at steps
    subst after
    split
    · next hit found =>
      refine opened.land.serve fun same => ?_
      subst same
      obtain rfl : other = cacheName := Route.cacheFirst.inj (Eq.trans (Eq.symm inFlight) cached)
      rw [cacheMatch, held.pinned.found] at found
      cases found
      exact .inl rfl
    · next missed =>
      refine opened.launch fun same => ?_
      subst same
      have none_ := List.find?_eq_none.mp (Option.map_eq_none_iff.mp missed)
      exact Bool.not_eq_true _ ▸ none_ entry (List.mem_of_find?_eq_some held.pinned.found)
  | falling =>
    simp only [Worker.look, Option.some.injEq] at steps
    subst after
    refine (held.opened offlineCache).land.serve fun same => ?_
    subst same
    cases Eq.trans (Eq.symm inFlight) cached
  | _ => cases steps

/-- An answer of the network leaves the entry pinned, and is none to the query. -/
theorem network_held (inFlight : InFlight location worker.answered flight)
    (flies : worker.flights id = some flight) (steps : worker.network id flight response = some after) :
    Held before after cacheName query entry := by
  obtain ⟨request, phase⟩ := flight
  have offline : cacheName ≠ offlineCache := (route_cacheFirst cached).valid.2
  cases phase with
  | fetching other =>
    have apart : request ≠ query := by
      rintro rfl
      obtain rfl : other = cacheName := Route.cacheFirst.inj (Eq.trans (Eq.symm inFlight) cached)
      exact held.not_query flies rfl rfl
    simp only [Worker.network, Option.some.injEq] at steps
    subst after
    refine Held.serve ?_ fun same => absurd same apart
    split
    · exact (held.hear apart).launch fun may => held.pinned.quiet id ⟨request, .fetching other⟩ flies may
    · exact (held.hear apart).land
  | navigating =>
    have apart : request ≠ query := by
      rintro rfl
      cases Eq.trans (Eq.symm inFlight) cached
    cases steps
    exact (held.hear apart).land.serve fun same => absurd same apart
  | adding =>
    have apart : request ≠ query := by
      rintro rfl
      rw [show request = offlineRequest location from inFlight] at cached
      exact offline_not_cached location (route_cacheFirst cached)
    simp only [Worker.network, Option.some.injEq] at steps
    subst after
    split
    · exact (held.hear apart).launch fun may => absurd may.symm offline
    · exact (held.hear apart).land
  | _ => cases steps

theorem networkFails_held (inFlight : InFlight location worker.answered flight)
    (flies : worker.flights id = some flight) (steps : worker.networkFails id flight = some after) :
    Held before after cacheName query entry := by
  obtain ⟨request, phase⟩ := flight
  cases phase with
  | fetching other =>
    cases steps
    refine held.land.serve fun same => ?_
    subst same
    obtain rfl : other = cacheName := Route.cacheFirst.inj (Eq.trans (Eq.symm inFlight) cached)
    exact absurd rfl (held.not_query flies rfl)
  | navigating =>
    cases steps
    exact held.launch False.elim
  | adding =>
    cases steps
    exact held.land
  | _ => cases steps

omit cached in
theorem put_held (flies : worker.flights id = some flight) (steps : worker.put id flight = some after) :
    Held before after cacheName query entry := by
  obtain ⟨request, phase⟩ := flight
  cases phase with
  | putting other response =>
    simp only [Worker.put, Option.some.injEq] at steps
    subst after
    split
    · next kept done =>
      obtain ⟨entries, there, put⟩ := Option.bind_eq_some_iff.mp done
      refine held.land.store fun same => ?_
      subst same
      have found := held.pinned.found
      rw [Worker.entriesOf, there] at found
      exact find?_put found (held.pinned.quiet id _ flies rfl) put
    · exact held.land
  | _ => cases steps

omit cached in
theorem ends_held (steps : worker.lookFails id flight = some after ∨ worker.putFails id flight = some after) :
    Held before after cacheName query entry := by
  obtain ⟨request, phase⟩ := flight
  rcases steps with steps | steps <;> cases phase <;> cases steps
  · exact held.land.serve fun _ => .inr rfl
  · exact held.land.serve fun _ => .inr rfl
  · exact held.land

/-- As long as the caches are not dropped, every event leaves the entry pinned. -/
theorem step_held (sound : Sound location worker) (kept : event ≠ .evict)
    (steps : worker.step location event = some after) : Held before after cacheName query entry := by
  have cacheable := route_cacheFirst cached
  have flying {id : Nat} {next : Flight β → Option (Worker β)} (steps : worker.onFlight id next = some after) :
      ∃ flight, worker.flights id = some flight ∧ InFlight location worker.answered flight ∧
        next flight = some after := by
    obtain ⟨flight, found, goes⟩ := Option.bind_eq_some_iff.mp steps
    exact ⟨flight, found, sound.flights id flight found, goes⟩
  cases event with
  | install id =>
    obtain ⟨-, ⟨⟩⟩ := Option.ite_none_left_eq_some.mp steps
    exact (held.opened offlineCache).launch fun may => absurd may cacheable.valid.2
  | activate =>
    cases steps
    refine ⟨⟨?_, held.pinned.quiet⟩, held.served, held.answered⟩
    simpa only [Worker.entriesOf, if_pos cacheable.valid.1] using held.pinned.found
  | fetch id request =>
    obtain ⟨-, goes⟩ := Option.ite_none_left_eq_some.mp steps
    split at goes <;> cases goes
    · exact held
    · exact held.launch False.elim
    · exact held.launch False.elim
  | look id =>
    obtain ⟨flight, -, inFlight, goes⟩ := flying steps
    exact look_held held cached inFlight goes
  | lookFails id =>
    obtain ⟨flight, -, -, goes⟩ := flying steps
    exact ends_held held (.inl goes)
  | network id response =>
    obtain ⟨flight, flies, inFlight, goes⟩ := flying steps
    exact network_held held cached inFlight flies goes
  | networkFails id =>
    obtain ⟨flight, flies, inFlight, goes⟩ := flying steps
    exact networkFails_held held cached inFlight flies goes
  | put id =>
    obtain ⟨flight, flies, -, goes⟩ := flying steps
    exact put_held held flies goes
  | putFails id =>
    obtain ⟨flight, -, -, goes⟩ := flying steps
    exact ends_held held (.inr goes)
  | evict => exact absurd rfl kept
  | outside other entries =>
    obtain ⟨foreign, ⟨⟩⟩ := Option.ite_none_left_eq_some.mp steps
    have apart : cacheName ≠ other := fun equal => foreign (equal ▸ cacheable.valid.1)
    refine ⟨⟨?_, held.pinned.quiet⟩, held.served, held.answered⟩
    simpa only [Worker.entriesOf, Function.update_of_ne apart] using held.pinned.found

end Steps

/-- A static asset or an image that is in its cache, with nothing in flight that would replace it, stays
there as long as the browser does not drop the caches, whatever else happens and however often the worker
is installed and activated: every answer to a request that finds it is that entry, unless the cache
cannot be opened, and the network is not asked for it again. -/
theorem cached_is_pinned {earlier : List (Event β)}
    (runs : (started : Worker β).run location earlier = some worker)
    (cached : route location query = .cacheFirst cacheName) (pinned : Pinned worker cacheName query entry)
    (kept : Event.evict ∉ events) (continues : worker.run location events = some after) :
    Held worker after cacheName query entry := by
  have sound := run_sound started_sound runs
  have others : Throughout (fun worker => worker.step location) (fun _ event => event ≠ Event.evict)
    worker events :=
    .of_forall fun _ event member same => kept (same ▸ member)
  have both := others.keeps
    (I := fun reached => Sound location reached ∧ Held worker reached cacheName query entry)
    (fun now stays steps => ⟨step_sound now.1 steps, step_held now.2 cached now.1 stays steps⟩)
    ⟨sound, pinned.held⟩ continues
  exact both.2

/-- The second request of the picture is answered from the cache. -/
theorem cached_is_pinned_picture :
    ∃ worker after, (started : Worker Unit).run "https://a" pictureStored = some worker ∧
      worker.run "https://a" [.fetch 1 pictureRequest, .look 1] = some after ∧
      after.served = worker.served ++ [(pictureRequest, .response picture)] ∧
      Held worker after imageCache pictureRequest ⟨pictureRequest, picture⟩ := by
  have kept : Event.evict ∉ ([.fetch 1 pictureRequest, .look 1] : List (Event Unit)) := by simp
  refine ⟨_, _, rfl, rfl, rfl, cached_is_pinned (rfl : (started : Worker Unit).run "https://a" pictureStored = _)
    picture_route ⟨rfl, fun id flight same => ?_⟩ kept rfl⟩
  -- Nothing is in flight any more.
  have landed : Function.update (Function.update (Function.update (Function.update (fun _ => none) 0
      (some ⟨pictureRequest, .looking imageCache⟩)) 0 (some ⟨pictureRequest, .fetching imageCache⟩)) 0
      (some ⟨pictureRequest, .putting imageCache picture⟩)) 0 none id = some flight := same
  simp [Function.update_idem] at landed

end SogeconApp.Guarantees.ServiceWorker
