import RealtimeNotify.Runs.SingleSession

/-!
# A routed user has a socket

Three views of one connection: the map of the instance, the registry entry, and
the session in its receive loop. A delivery that fails edits the first alone:
`send_json` takes the user out of the map, and the session goes on, with
heartbeats that keep the entry that routes to it.
-/

namespace RealtimeNotify.App

open RealtimeNotify.Lib RealtimeNotify.Python

variable {env : Env} {w w' : World} {a : Action} {u : String}

/-- Where the registry names the instance of a session in its receive loop, the
map of the instance has the socket of the session. -/
def RoutedSocket (u : String) (w : World) : Prop :=
  ∀ n s, w.sessions n = some s → s.pc.user? = some u → s.pc.inLoop = true →
    w.shared.redis.lookup w.shared.now u = some s.instanceId →
    (w.shared.connections s.instanceId).get u = some n

/-- No `remove` of a failed delivery, nor the loop of `close_all`, takes the
entry of `u` out while a session of `u` is connected there. -/
def sparesConnected (env : Env) (u : String) (w : World) : Action → Prop
  | .task id _ => ∀ n s op, w.sessions n = some s → s.pc.connected? = some u →
      w.awaits env id = some op → op.takesOut s.instanceId u = false
  | _ => True

/-- The map has the socket of a connected session of `u`. -/
def Socketed (u : String) (w : World) : Prop :=
  ∀ n s, w.sessions n = some s → s.pc.connected? = some u →
    (w.shared.connections s.instanceId).get u = some n

theorem Socketed.step (h : Socketed u w) (hone : OneSession u w)
    (hg : sparesConnected env u w a) (hstep : Stepped env w a w') : Socketed u w' := by
  intro n s' hs' hu
  refine hstep.socket_step (fun s hs hconn => ?_) hs' hu
  refine hone.socket_kept hstep hs hconn (h n s hs hconn) fun id o op ha haw => ?_
  subst ha
  exact hg n s op hs hconn haw

theorem GatewayPc.connected_of_inLoop {pc : GatewayPc} (hl : pc.inLoop = true)
    (hu : pc.user? = some u) : pc.connected? = some u := by
  cases pc <;> simp_all [inLoop, user?, connected?]

/-- In a run with one session of `u` at a time, in which no failed delivery and no
shutdown takes a connected session out of the map, a routed user has a socket.
Keys may expire and instances may crash. -/
theorem routed_user_has_socket (h : Reach (platform env)
    (fun w a => OneSession u w ∧ sparesConnected env u w a) w) : RoutedSocket u w := by
  have hsocket : Socketed u w := by
    refine h.invariant (I := Socketed u) ?_ fun _ hg ih hstep =>
      ih.step hg.1 hg.2 (World.stepped hstep)
    simp [platform, World.empty, Socketed]
  intro n s hs hu hloop _
  exact hsocket n s hs (GatewayPc.connected_of_inLoop hloop hu)

/-- A step that takes nobody out of a map. -/
def removesNobody (env : Env) (w : World) : Action → Bool
  | .task id _ => (w.awaits env id).all fun op => match op with
      | .remove .. | .popSocket .. => false
      | _ => true
  | _ => true

theorem sparesConnected_of_removesNobody (h : removesNobody env w a = true) :
    sparesConnected env u w a := by
  cases a with
  | task id o =>
    intro n s op _ _ haw
    cases op with
    | remove _ _ | popSocket _ _ => simp [removesNobody, haw] at h
    | _ => rfl
  | _ => trivial

theorem routed_user_has_socket_delivery : ∃ w,
    (platform plainEnv).run .empty deliveryRun = some w ∧
    w.shared.redis.lookup w.shared.now someUser = some "a" ∧
    RoutedSocket someUser w := by
  obtain ⟨w, hrun, hlookup⟩ : ∃ w, (platform plainEnv).run .empty deliveryRun = some w ∧
      w.shared.redis.lookup w.shared.now someUser = some "a" := ⟨_, rfl, rfl⟩
  have hmeets : (platform plainEnv).Meets
      (fun w a => opensOnly 0 a = true ∧ removesNobody plainEnv w a = true) .empty
      deliveryRun := by decide
  have hreach : Reach (platform plainEnv)
      (fun w a => OneSession someUser w ∧ sparesConnected plainEnv someUser w a) w := by
    refine (Reach.of_run .init hmeets hrun).mono_of_reach fun v a hv hg => ⟨?_, ?_⟩
    · exact .of_opensOnly (hv.mono fun _ _ hg => hg.1)
    · exact sparesConnected_of_removesNobody hg.2
  exact ⟨w, hrun, hlookup, routed_user_has_socket hreach⟩

/-- Time stands still, no key goes and no instance dies. -/
def Action.calm : Action → Bool
  | .tick _ | .expireDedup _ | .crash _ => false
  | _ => true

/-- A message goes to the client, the send fails, and the client's next message
is a heartbeat. -/
def failedDeliveryRun : List Action :=
  soloRun ++ Action.submit 0 "a" someBody ++
    .insert 0 newYear :: List.replicate 4 (.ok (.request 0)) ++
    [.ok (.subscriber "a"), .ok (.subscriber "a"), .fail (.subscriber "a"),
      .ok (.subscriber "a")] ++ Action.say 0 heartbeatMessage 3

/-- The session is in its receive loop, the registry names its instance, and the
map has no socket for its user. -/
theorem routed_user_has_no_socket : ∃ w, Reach (platform plainEnv)
    (fun w a => (∀ v, OneSession v w) ∧ a.calm = true) w ∧ ¬ RoutedSocket someUser w := by
  obtain ⟨w, hrun, hs, hlookup, hget⟩ : ∃ w,
      (platform plainEnv).run .empty failedDeliveryRun = some w ∧
      w.sessions 0 = some ⟨"a", "c0", .receive someUser⟩ ∧
      w.shared.redis.lookup w.shared.now someUser = some "a" ∧
      (w.shared.connections "a").get someUser = none := ⟨_, rfl, rfl, rfl, rfl⟩
  have hactions : ∀ a ∈ failedDeliveryRun, opensOnly 0 a = true ∧ a.calm = true := by decide
  have hreach : Reach (platform plainEnv)
      (fun _ a => opensOnly 0 a = true ∧ a.calm = true) w :=
    .of_actions (fun _ a ha => hactions a ha) hrun
  refine ⟨w, ?_, fun hrouted => ?_⟩
  · refine hreach.mono_of_reach fun v a hv hg => ⟨fun _ => ?_, hg.2⟩
    exact .of_opensOnly (hv.mono fun _ _ hg => hg.1)
  · have hsocket := hrouted 0 _ hs rfl rfl hlookup
    rw [hget] at hsocket
    cases hsocket

end RealtimeNotify.App
