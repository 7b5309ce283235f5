import RealtimeNotify.App.Shutdown
import RealtimeNotify.Runs.Cleanup

/-!
# The maps of reachable states

A handler enters its socket once, so that the map of an instance has one socket
for each user and each socket for one user: a shutdown finds a `ConnectionMap`.
-/

namespace RealtimeNotify.App

open RealtimeNotify.Lib RealtimeNotify.Python

variable {env : Env} {w w' : World} {a : Action} {i u v : String} {n : Nat}

/-- Past `add`, however the handler went on. -/
def GatewayPc.added : GatewayPc → Bool
  | redeem _ | reject | accept _ | add _ => false
  | _ => true

/-- The socket of session `n` may be in a map. -/
def Added (n : Nat) (w : World) : Prop := ∃ s, w.sessions n = some s ∧ s.pc.added = true

theorem GatewayPc.added_routed {fields : Dict PyStr Json} :
    (GatewayPc.routed env u fields).added = true := by
  unfold GatewayPc.routed
  split
  · rfl
  · rfl
  · split <;> rfl
  · rfl

namespace GatewayPc

variable {pc r : GatewayPc} {c : String} {op : Op} {k : op.Reply → GatewayPc}

theorem added_next (h : pc.next env n i c = .call op k r) (hadded : pc.added = true)
    (reply : op.Reply) : (k reply).added = true := by
  cases pc with
  | onlineSeen u =>
    cases h
    cases hu : UUID.ofString u <;> simp [added]
  | receive u =>
    cases h
    cases reply <;> simp [added]
  | allow u fields =>
    cases h
    cases reply
    · rfl
    · exact added_routed
  | redeem _ | reject | accept _ | add _ => cases hadded
  | ended => cases h
  | _ =>
    cases h
    rfl

theorem added_raised (h : pc.next env n i c = .call op k r) : r.added = true := by
  cases pc <;> cases h <;> rfl

end GatewayPc

theorem Added.step (h : Added n w) (hstep : Stepped env w a w') : Added n w' := by
  obtain ⟨s, hs, hadded⟩ := h
  obtain ⟨s', hs', hmove⟩ := hstep.session_move hs
  refine ⟨s', hs', ?_⟩
  cases hmove with
  | same _ _ => exact hadded
  | killed _ _ => rfl
  | moved _ hadv _ _ =>
    cases hadv with
    | returned hn _ => exact GatewayPc.added_next hn hadded _
    | raised hn _ | applied hn _ _ => exact GatewayPc.added_raised hn

/-- `add` does not raise, and the handler is past it afterwards. -/
theorem Added.of_add {s : Session} {o : Outcome Choice}
    (hstep : Stepped env w (.task (.session n) o) w') (hs : w.sessions n = some s)
    (hpc : s.pc = .add u) : Added n w' := by
  obtain ⟨sh, pc, e, hs', hadv⟩ := hstep.session_own rfl hs
  refine ⟨{ s with pc }, hs', ?_⟩
  cases hadv with
  | returned hn _ =>
    rw [hpc] at hn
    cases hn
    rfl
  | raised hn _ | applied hn _ _ => exact GatewayPc.added_raised hn

/-- Each socket of a map is of a handler past `add`, and is there for one user. -/
structure DistinctSockets (w : World) : Prop where
  added : ∀ i u n, (w.shared.connections i).get u = some n → Added n w
  one : ∀ i u v n, (w.shared.connections i).get u = some n →
    (w.shared.connections i).get v = some n → u = v
  keys : ∀ i, (w.shared.connections i).keys.Nodup

theorem Shared.exec_keys_nodup {s sh : Shared} {op : Op} {c : Choice} {reply : op.Reply}
    (hx : s.exec op c = some (sh, reply)) (h : ∀ i, (s.connections i).keys.Nodup) (i : String) :
    (sh.connections i).keys.Nodup := by
  have hset : ∀ {j : String} {d : Dict String Nat}, d.keys.Nodup →
      ((s.setConnections j d).connections i).keys.Nodup := by
    intro j d hd
    by_cases hj : i = j
    · simpa [Shared.setConnections, hj] using hd
    · simpa [Shared.setConnections, hj] using h i
  cases Shared.exec_connections hx with
  | kept _ hsame => exact hsame ▸ h i
  | added _ =>
    obtain ⟨rfl, -⟩ := by simpa [Shared.exec] using hx
    exact hset (Dict.nodup_set (h _))
  | removed hop _ =>
    rcases hop with rfl | rfl
    all_goals
      obtain ⟨rfl, -⟩ := by simpa [Shared.exec] using hx
      exact hset (Dict.nodup_pop (h _))

theorem Stepped.keys_nodup (hstep : Stepped env w a w')
    (h : ∀ i, (w.shared.connections i).keys.Nodup) (i : String) :
    (w'.shared.connections i).keys.Nodup := by
  obtain ⟨sh, log, hsh, -, ht⟩ := hstep.touched
  rw [hsh]
  cases ht with
  | tick | expireDedup | raised _ _ | started _ => exact h i
  | @crash j =>
    by_cases hj : i = j
    · simp [Shared.setConnections, hj, Dict.keys]
    · simpa [Shared.setConnections, Shared.setChannel, hj] using h i
  | returned _ hx | applied _ _ hx => exact Shared.exec_keys_nodup hx h i

theorem DistinctSockets.step (h : DistinctSockets w) (hstep : Stepped env w a w') :
    DistinctSockets w' where
  added i u n hget := by
    rcases hstep.mapped_cases hget with ⟨hold, -⟩ | ⟨s, o, hs, -, hpc, rfl⟩
    · exact (h.added i u n hold).step hstep
    · exact .of_add hstep hs hpc
  one i u v n hu hv := by
    -- a handler at `add` has no socket in a map yet
    have hnew : ∀ {s : Session} {v' : String}, w.sessions n = some s → s.pc = .add v' →
        ∀ u', (w.shared.connections i).get u' ≠ some n := by
      intro s v' hs hpc u' hget
      obtain ⟨t, ht, hadded⟩ := h.added i u' n hget
      obtain rfl := Option.some.inj (hs.symm.trans ht)
      rw [hpc] at hadded
      cases hadded
    rcases hstep.mapped_cases hu with ⟨hu, -⟩ | ⟨s, _, hs, -, hpc, -⟩
    · rcases hstep.mapped_cases hv with ⟨hv, -⟩ | ⟨t, _, ht, -, hpc', -⟩
      · exact h.one i u v n hu hv
      · exact absurd hu (hnew ht hpc' u)
    · rcases hstep.mapped_cases hv with ⟨hv, -⟩ | ⟨t, _, ht, -, hpc', -⟩
      · exact absurd hv (hnew hs hpc v)
      · obtain rfl := Option.some.inj (hs.symm.trans ht)
        exact GatewayPc.add.inj (hpc.symm.trans hpc')
  keys := hstep.keys_nodup h.keys

theorem DistinctSockets.of_reachable (h : Reachable env w) : DistinctSockets w := by
  refine h.invariant (I := DistinctSockets) ?_ fun _ _ ih hstep => ih.step (World.stepped hstep)
  constructor <;> simp [platform, World.empty, Dict.keys]

/-- The map of instance `i` in a reachable state. -/
def Reachable.connectionMap (h : Reachable env w) (i : String) : ConnectionMap where
  items := w.shared.connections i
  keys_nodup := (DistinctSockets.of_reachable h).keys i
  sockets_nodup := Dict.nodup_values ((DistinctSockets.of_reachable h).keys i) fun u v n =>
    (DistinctSockets.of_reachable h).one i u v n

/-- The lifespan of an instance, alone from a reachable state on, does what
`lifespanFinally` does there. -/
theorem Reachable.shutdown_alone (h : Reachable env w) (i : String)
    (outcomes : ShutdownOutcomes) (died : Option LoadsError) :
    semantics.Alone (LifespanPc.next env i) w.shared .collecting
      (Shutdown.after (lifespanFinally outcomes i (.serving w.shared died))).shared
      (Shutdown.endPoint .stopped .failed (lifespanFinally outcomes i (.serving w.shared died))) :=
  lifespanFinally_alone (p := .serving w.shared died) (h.connectionMap i).keys_nodup

end RealtimeNotify.App
