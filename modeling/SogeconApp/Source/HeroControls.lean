import Mathlib.Logic.Function.Basic

/-!
# The hero controls of the admin lists

Source: `apps/web/hooks/useHeroTargetControls.ts` (createMutation, updateMutation).

The cache is what `getQueryData` gives for the hook's lookup key. A mutation starts when its `onMutate`
has cancelled the queries, and it runs until its `onSuccess` or its `onError`. Whatever the server answers
to it, the answer is a hero item. The refetch that a success asks for is not modelled.
-/

namespace SogeconApp.Source.HeroControls

structure HeroTargetLookupItem where
  targetId : Int
  heroItemId : Int
  enabled : Bool
  pinned : Bool
  deriving DecidableEq, Repr

/-- `HeroTargetLookupResponse | undefined`. -/
abbrev Cache := Option (List HeroTargetLookupItem)

/-- `old?.items ?? []`. -/
def Cache.items (old : Cache) : List HeroTargetLookupItem := old.getD []

/-- The part of a hero item that the hook reads. -/
structure HeroItem where
  id : Int
  enabled : Bool
  pinned : Bool
  deriving DecidableEq, Repr

structure UpdatePayload where
  id : Int
  enabled : Option Bool := none
  pinned : Option Bool := none
  deriving DecidableEq, Repr

inductive Variables where
  | create (targetId : Int)
  | update (payload : UpdatePayload)
  deriving DecidableEq, Repr

/-! ## onMutate -/

def createOptimistically (targetId : Int) (old : Cache) : Cache :=
  let items := old.items
  if items.any fun item => item.targetId = targetId then some (old.getD items)
  else some (items ++ [{ targetId, heroItemId := 0, enabled := true, pinned := false }])

def updateOptimistically (payload : UpdatePayload) (old : Cache) : Cache :=
  some <| old.items.map fun item =>
    if item.heroItemId ≠ payload.id then item
    else { item with enabled := payload.enabled.getD item.enabled, pinned := payload.pinned.getD item.pinned }

def onMutate : Variables → Cache → Cache
  | .create targetId => createOptimistically targetId
  | .update payload => updateOptimistically payload

/-! ## onSuccess -/

def createSucceeds (targetId : Int) (created : HeroItem) (old : Cache) : Cache :=
  some <| old.items.map fun item =>
    if item.targetId ≠ targetId then item
    else { targetId, heroItemId := created.id, enabled := created.enabled, pinned := created.pinned }

def updateSucceeds (updated : HeroItem) (old : Cache) : Cache :=
  some <| old.items.map fun item =>
    if item.heroItemId ≠ updated.id then item
    else { item with enabled := updated.enabled, pinned := updated.pinned }

def onSuccess : Variables → HeroItem → Cache → Cache
  | .create targetId, created => createSucceeds targetId created
  | .update _, updated => updateSucceeds updated

/-! ## onError -/

def createFails (targetId : Int) (previous old : Cache) : Cache :=
  match previous with
  | some _ => previous
  | none => some (old.items.filter fun item => item.targetId ≠ targetId)

def updateFails (previous old : Cache) : Cache :=
  match previous with
  | some _ => previous
  | none => old

def onError : Variables → (previous old : Cache) → Cache
  | .create targetId => createFails targetId
  | .update _ => updateFails

/-! ## Mutations side by side -/

/-- A mutation under way, with the context that its `onMutate` returned. -/
structure Mutation where
  args : Variables
  previous : Cache
  deriving DecidableEq

/-- The cache, and the mutations under way by their numbers. -/
structure Controls where
  cache : Cache
  running : Nat → Option Mutation

inductive Step where
  | start (number : Nat) (args : Variables)
  | succeed (number : Nat) (answer : HeroItem)
  | fail (number : Nat)
  deriving DecidableEq, Repr

/-- The step ends this mutation. -/
def Step.settles (number : Nat) : Step → Prop
  | .start _ _ => False
  | .succeed other _ | .fail other => other = number

/-- `none` if a mutation of the number is already under way, or none that could end. -/
def Controls.step (controls : Controls) : Step → Option Controls
  | .start number args =>
    match controls.running number with
    | some _ => none
    | none =>
      some
        { cache := onMutate args controls.cache
          running := Function.update controls.running number (some { args, previous := controls.cache }) }
  | .succeed number answer =>
    (controls.running number).map fun mutation =>
      { cache := onSuccess mutation.args answer controls.cache
        running := Function.update controls.running number none }
  | .fail number =>
    (controls.running number).map fun mutation =>
      { cache := onError mutation.args mutation.previous controls.cache
        running := Function.update controls.running number none }

def Controls.run (controls : Controls) : List Step → Option Controls
  | [] => some controls
  | step :: rest => (controls.step step).bind fun after => after.run rest

/-- The hook before its first mutation. -/
def opened (cache : Cache) : Controls where
  cache := cache
  running := fun _ => none

end SogeconApp.Source.HeroControls
