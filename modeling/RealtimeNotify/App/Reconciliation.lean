import RealtimeNotify.App.World

/-!
# `ReconciliationLoop._reconcile`

One pass, apart from the platform: it looks at the registry entries of the users
in the map and warns where one is not this instance's. It writes nothing, so the
platform runs as it does without it.
-/

namespace RealtimeNotify.App

open RealtimeNotify.Lib RealtimeNotify.Python

/-- The points of a pass, with what it has logged. An exception leaves it, and
`_run` goes on to the next pass. -/
inductive ReconcilePc where
  | collecting
  | looking (logged : List String) (userId : String) (todo : List String)
  | finished (logged : List String)
  | failed

/-- `"Registry drift detected for user %s, expected %s, found %s"`. -/
def driftWarning (userId instanceId : String) (owner : Option String) : String :=
  "Registry drift detected for user " ++ userId ++ ", expected " ++ instanceId ++ ", found " ++
    owner.getD "None"

/-- What is logged about a user whose lookup gave `owner`. -/
def driftLog (instanceId userId : String) (owner : Option String) : List String :=
  if owner = some instanceId then [] else [driftWarning userId instanceId owner]

namespace ReconcilePc

/-- The head of the loop. -/
def loop (logged : List String) : List String → ReconcilePc
  | [] => finished logged
  | u :: todo => looking logged u todo

def next (i : String) : ReconcilePc → Step ReconcilePc
  | collecting => .call (.connectedUserIds i) (fun all => loop [] all) failed
  | looking logged u todo => .call (.redis (InstanceRegistry.lookup u))
      (fun (owner : Option RedisValue) =>
        loop (logged ++ driftLog i u (owner.map (·.decode))) todo) failed
  | finished _ | failed => .done

end ReconcilePc

/-- What a pass on `i` logs in the state `s`. -/
def driftLogs (s : Shared) (i : String) (users : List String) : List String :=
  users.flatMap fun u => driftLog i u (s.redis.lookup s.now u)

/-! ## A pass that runs alone -/

variable {i : String} {s s' : Shared} {pc pc' : ReconcilePc} {logged : List String}

theorem reconcile_step_reads {o : Outcome Choice} {e : Happened Op Op.Reply}
    (h : Advances semantics s (pc.next i) o s' pc' e) : s' = s := by
  cases h with
  | raised _ _ => rfl
  | returned hn hx | applied hn _ hx =>
    cases pc with
    | collecting =>
      cases hn
      obtain ⟨rfl, -⟩ := by simpa [semantics, Shared.exec] using hx
      rfl
    | looking logged u todo =>
      cases hn
      obtain ⟨rfl, -⟩ := by
        simpa [semantics, Shared.exec, InstanceRegistry.lookup, RedisCmd.exec] using hx
      rfl
    | finished _ | failed => cases hn

/-- A pass leaves everything as it is. -/
theorem reconcile_reads (h : semantics.Alone (ReconcilePc.next i) s pc s' pc') : s' = s := by
  induction h with
  | refl => rfl
  | step hadv _ ih => exact ih.trans (reconcile_step_reads hadv)

/-- The loop comes to its end, with a line in the log for each drift. -/
theorem reconcile_loop (s : Shared) (i : String) (logged todo : List String) :
    semantics.Alone (ReconcilePc.next i) s (.loop logged todo) s
      (.finished (logged ++ driftLogs s i todo)) := by
  induction todo generalizing logged with
  | nil => simpa [ReconcilePc.loop, driftLogs] using .refl
  | cons u todo ih =>
    have hx : semantics.exec s (.redis (InstanceRegistry.lookup u)) .none
        = some (s, s.redis.get s.now (registryKey u)) := rfl
    have hrest := ih (logged ++ driftLog i u (s.redis.lookup s.now u))
    rw [List.append_assoc] at hrest
    exact .step (.returned rfl hx) hrest

/-- A pass can run to its end, and what it logs there are the drifts. -/
theorem reconcile_detects (s : Shared) (i : String) :
    semantics.Alone (ReconcilePc.next i) s .collecting s
      (.finished (driftLogs s i (s.connections i).keys)) := by
  have hx : semantics.exec s (.connectedUserIds i) .none = some (s, (s.connections i).keys) := rfl
  exact .step (.returned rfl hx) (reconcile_loop s i [] _)

end RealtimeNotify.App
