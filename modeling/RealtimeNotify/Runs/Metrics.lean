import RealtimeNotify.App.Metrics
import RealtimeNotify.Runs.Order

/-!
# What a step does to the metrics

From it: the gauge of an instance is the size of its connection map, but in the loop of
`close_all`, which empties the map first.
-/

namespace RealtimeNotify.App

open RealtimeNotify.Lib RealtimeNotify.Python

variable {env : Env} {w w' : World} {a : Action} {m : String → Metrics} {i : String}

/-! ## One step -/

/-- The step is of another instance, or of none. -/
structure Aside (w : World) (a : Action) (i : String) : Prop where
  crash : a ≠ .crash i
  session : ∀ n s o, w.sessions n = some s → s.instanceId = i → a ≠ .task (.session n) o
  request : ∀ n r o, w.requests n = some r → r.instanceId = i → a ≠ .task (.request n) o
  subscriber : ∀ o, a ≠ .task (.subscriber i) o
  lifespan : ∀ o, a ≠ .task (.lifespan i) o

/-- What a step does to the metrics of `i`. -/
inductive MeterCase (env : Env) (w : World) (a : Action) (w' : World) (m : Metrics) (i : String) :
    Metrics → Prop where
  | aside : Aside w a i → MeterCase env w a w' m i m
  | crashed : a = .crash i → MeterCase env w a w' m i {}
  | session {n s o sh pc e} : w.sessions n = some s → s.instanceId = i →
      a = .task (.session n) o →
      Advances semantics w.shared (s.pc.next env n s.instanceId s.connectionId) o sh pc e →
      w'.shared = sh → w'.sessions n = some { s with pc } →
      MeterCase env w a w' m i (s.pc.meter (w'.activeConnections i) e m)
  | request {n r o sh pc e} : w.requests n = some r → r.instanceId = i →
      a = .task (.request n) o →
      Advances semantics w.shared (r.pc.next env r.client r.body) o sh pc e →
      w'.shared = sh → w'.requests n = some { r with pc } →
      MeterCase env w a w' m i (r.pc.meter e m)
  | subscriber {p o sh pc e} : w.processes i = some p → a = .task (.subscriber i) o →
      Advances semantics w.shared (p.subscriber.next i) o sh pc e → w'.shared = sh →
      w'.log = ⟨w.shared.now, .subscriber i, e⟩ :: w.log →
      MeterCase env w a w' m i (p.subscriber.meter (w'.activeConnections i) e m)
  | lifespan {p o sh pc e} : w.processes i = some p → a = .task (.lifespan i) o →
      Advances semantics w.shared (p.lifespan.next env i) o sh pc e → w'.shared = sh →
      w'.processes i = some { p with lifespan := pc } →
      MeterCase env w a w' m i (p.lifespan.meter (w'.activeConnections i) pc m)

theorem Stepped.meter_cases (h : Stepped env w a w') (m : String → Metrics) (i : String) :
    MeterCase env w a w' (m i) i (w.meter a w' m i) := by
  cases h with
  | tick | expireDedup | boot _ | connect _ _ | post _ _ | issue _ _ | ticketRequest _ _
  | liveness _ _ _ => exact .aside (by constructor <;> simp)
  | @crash j _ =>
    by_cases hij : i = j
    · subst hij
      rw [show w.meter (.crash i) (w.crash i) m i = {} from Function.update_self ..]
      exact .crashed rfl
    · rw [show w.meter (.crash j) (w.crash j) m i = m i from Function.update_of_ne hij ..]
      exact .aside (by constructor <;> simp [Ne.symm hij])
  | @session n s o sh pc e hs hadv =>
    simp only [World.meter, hs]
    by_cases hi : i = s.instanceId
    · subst hi
      rw [Function.update_self]
      exact .session hs rfl rfl hadv rfl (Function.update_self ..)
    · rw [Function.update_of_ne hi]
      refine .aside ⟨by simp, fun n' s' o' hs' hi' ha' => ?_, by simp, by simp, by simp⟩
      cases ha'
      obtain rfl := Option.some.inj (hs.symm.trans hs')
      exact hi hi'.symm
  | @request n r o sh pc e hr hadv =>
    simp only [World.meter, hr]
    by_cases hi : i = r.instanceId
    · subst hi
      rw [Function.update_self]
      exact .request hr rfl rfl hadv rfl (Function.update_self ..)
    · rw [Function.update_of_ne hi]
      refine .aside ⟨by simp, by simp, fun n' r' o' hr' hi' ha' => ?_, by simp, by simp⟩
      cases ha'
      obtain rfl := Option.some.inj (hr.symm.trans hr')
      exact hi hi'.symm
  | @subscriber j p o sh pc e hp _ hadv =>
    simp only [World.meter, hp]
    by_cases hij : i = j
    · subst hij
      rw [Function.update_self]
      exact .subscriber hp rfl hadv rfl rfl
    · rw [Function.update_of_ne hij]
      exact .aside (by constructor <;> simp [Ne.symm hij])
  | @lifespan j p o sh pc e hp hadv =>
    have hp' : (w.setProcess j { p with lifespan := pc }).processes j
        = some { p with lifespan := pc } := Function.update_self ..
    simp only [World.meter, hp, hp']
    by_cases hij : i = j
    · subst hij
      rw [Function.update_self]
      exact .lifespan hp rfl hadv rfl hp'
    · rw [Function.update_of_ne hij]
      exact .aside (by constructor <;> simp [Ne.symm hij])

/-! ## The gauge -/

theorem Shared.exec_map {s sh : Shared} {op : Op} {c : Choice} {reply : op.Reply}
    (h : s.exec op c = some (sh, reply)) (hadd : ∀ u n, op ≠ .add i u n)
    (hremove : ∀ u, op ≠ .remove i u) (hpop : ∀ u, op ≠ .popSocket i u) :
    sh.connections i = s.connections i := by
  have hset : ∀ {j d}, j ≠ i → (s.setConnections j d).connections i = s.connections i :=
    fun hj => Function.update_of_ne (Ne.symm hj) ..
  cases Shared.exec_cases h with
  | @add j u n =>
    refine hset ?_
    rintro rfl
    exact hadd u n rfl
  | @remove j u =>
    refine hset ?_
    rintro rfl
    exact hremove u rfl
  | @popSocket j u =>
    refine hset ?_
    rintro rfl
    exact hpop u rfl
  | publish => rw [Shared.publish_connections]
  | _ => rfl

/-- The map of an instance is its own tasks' business. -/
theorem Aside.connections (h : Aside w a i) (hstep : Stepped env w a w') :
    w'.shared.connections i = w.shared.connections i := by
  have heffect : ∀ {id o op c sh} {reply : op.Reply}, a = .task id o →
      w.awaits env id = some op → w.shared.exec op c = some (sh, reply) →
      sh.connections i = w.shared.connections i := by
    intro id o op c sh reply ha haw hx
    refine Shared.exec_map hx ?_ ?_ ?_
    · rintro u n rfl
      obtain ⟨s, rfl, hs, hi, -⟩ := World.addCaller haw
      exact h.session _ _ _ hs hi ha
    · rintro u rfl
      cases World.localCaller haw rfl with
      | leave hs _ => exact h.session _ _ _ hs rfl ha
      | drop _ _ => exact h.subscriber _ ha
    · rintro u rfl
      cases World.localCaller haw rfl with
      | pop _ _ => exact h.lifespan _ ha
  obtain ⟨sh, log, hsh, -, ht⟩ := hstep.touched
  rw [hsh]
  cases ht with
  | tick | expireDedup | started _ | raised _ _ => rfl
  | crash =>
    refine Function.update_of_ne (fun hi => ?_) ..
    rw [hi] at h
    exact h.crash rfl
  | returned ha hx | applied ha _ hx => exact heffect rfl ha hx

/-- A session sets the gauge or leaves the map alone. -/
theorem GatewayPc.meter_active {n active : Nat} {c : String} {pc pc' : GatewayPc} {s sh : Shared}
    {o : Outcome Choice} {e : Happened Op Op.Reply} {m : Metrics}
    (h : Advances semantics s (pc.next env n i c) o sh pc' e) :
    (pc.meter active e m).activeConnections = active ∨
      (pc.meter active e m).activeConnections = m.activeConnections ∧
        sh.connections i = s.connections i := by
  cases h with
  | @returned op k r c' _ reply hn hx =>
    have hmap := Shared.exec_map (i := i) hx
    cases pc with
    | add u | remove u => exact .inl rfl
    | receive u =>
      cases hn
      refine .inr ⟨?_, hmap (by simp) (by simp) (by simp)⟩
      cases reply <;> rfl
    | allow u fields =>
      cases hn
      refine .inr ⟨?_, hmap (by simp) (by simp) (by simp)⟩
      cases reply <;> rfl
    | readReceipt u id k =>
      cases hn
      refine .inr ⟨?_, hmap (by simp) (by simp) (by simp)⟩
      cases reply <;> rfl
    | ended => cases hn
    | _ =>
      cases hn
      exact .inr ⟨rfl, hmap (by simp) (by simp) (by simp)⟩
  | @raised op k r hn hf =>
    refine .inr ⟨?_, rfl⟩
    cases pc <;> rfl
  | @applied op k r c' _ reply hn hf hx =>
    have hmap := Shared.exec_map (i := i) hx
    cases pc with
    | add u | remove u =>
      cases hn
      cases hf
    | ended => cases hn
    | _ =>
      cases hn
      exact .inr ⟨rfl, hmap (by simp) (by simp) (by simp)⟩

theorem SubscriberPc.meter_active {active : Nat} {pc pc' : SubscriberPc} {s sh : Shared}
    {o : Outcome Choice} {e : Happened Op Op.Reply} {m : Metrics}
    (h : Advances semantics s (pc.next i) o sh pc' e) :
    (pc.meter active e m).activeConnections = active ∨
      (pc.meter active e m).activeConnections = m.activeConnections ∧
        sh.connections i = s.connections i := by
  cases h with
  | @returned op k r c' _ reply hn hx =>
    have hmap := Shared.exec_map (i := i) hx
    cases pc with
    | dropping u n => exact .inl rfl
    | dead => cases hn
    | _ =>
      cases hn
      exact .inr ⟨rfl, hmap (by simp) (by simp) (by simp)⟩
  | raised hn hf =>
    refine .inr ⟨?_, rfl⟩
    cases pc <;> rfl
  | @applied op k r c' _ reply hn hf hx =>
    have hmap := Shared.exec_map (i := i) hx
    cases pc with
    | dropping u n =>
      cases hn
      cases hf
    | dead => cases hn
    | _ =>
      cases hn
      exact .inr ⟨rfl, hmap (by simp) (by simp) (by simp)⟩

/-- A request has nothing to do with the map. -/
theorem CreatePc.meter_active {client : Option String} {body : NotificationCreate}
    {pc pc' : CreatePc} {s sh : Shared} {o : Outcome Choice} {e : Happened Op Op.Reply}
    {m : Metrics} (h : Advances semantics s (pc.next env client body) o sh pc' e) :
    (pc.meter e m).activeConnections = m.activeConnections ∧
      sh.connections i = s.connections i := by
  have hm : (pc.meter e m).activeConnections = m.activeConnections := by
    unfold CreatePc.meter
    split <;> rfl
  refine ⟨hm, ?_⟩
  cases h with
  | returned hn hx | applied hn _ hx =>
    have hmap := Shared.exec_map (i := i) hx
    cases pc <;> cases hn <;> exact hmap (by simp) (by simp) (by simp)
  | raised _ _ => rfl

/-- `close_all` has begun to take sockets out of the map. -/
def LifespanPc.emptying : LifespanPc → Bool
  | popping _ _ _ | closing _ _ _ => true
  | _ => false

/-- The gauge shows at least what the map has, and just that outside of the loop of
`close_all`. -/
structure Gauged (active : Nat) (size : Nat) (emptying : Bool) : Prop where
  le : size ≤ active
  eq : emptying = false → active = size

theorem LifespanPc.closeLoop_emptying {all todo : List String}
    (h : (closeLoop all todo).emptying = false) : (closeLoop all todo).inCloseAll = false := by
  cases todo with
  | nil => cases all <;> rfl
  | cons u todo => cases h

/-- A step of the shutdown only takes from the map, and where it does not empty the map
afterwards, it has just ended the loop or left the map alone. -/
structure Emptied (s sh : Shared) (i : String) (pc pc' : LifespanPc) : Prop where
  le : (sh.connections i).keys.length ≤ (s.connections i).keys.length
  ended : pc'.emptying = false → pc.inCloseAll = true ∧ pc'.inCloseAll = false ∨
    pc.emptying = false ∧ sh.connections i = s.connections i

theorem Emptied.loop {s sh : Shared} {pc : LifespanPc} {all todo : List String}
    (hpc : pc.inCloseAll = true) (hsame : sh.connections i = s.connections i) :
    Emptied s sh i pc (.closeLoop all todo) :=
  ⟨hsame ▸ le_rfl, fun hempty => .inl ⟨hpc, LifespanPc.closeLoop_emptying hempty⟩⟩

theorem Emptied.outside {s sh : Shared} {pc pc' : LifespanPc} (hpc : pc.emptying = false)
    (hsame : sh.connections i = s.connections i) : Emptied s sh i pc pc' :=
  ⟨hsame ▸ le_rfl, fun _ => .inr ⟨hpc, hsame⟩⟩

theorem LifespanPc.next_emptied {pc pc' : LifespanPc} {s sh : Shared} {o : Outcome Choice}
    {e : Happened Op Op.Reply} (h : Advances semantics s (pc.next env i) o sh pc' e) :
    Emptied s sh i pc pc' := by
  cases h with
  | @returned op k r c' _ reply hn hx =>
    have hmap := Shared.exec_map (i := i) hx
    cases pc with
    | popping all u todo =>
      cases hn
      obtain ⟨rfl, -⟩ : s.setConnections i ((s.connections i).pop u) = sh ∧ _ :=
        Prod.mk.inj (Option.some.inj hx)
      refine ⟨?_, fun hempty => .inl ⟨rfl, ?_⟩⟩
      · simpa [Shared.setConnections, Dict.keys, Dict.pop] using List.length_filter_le ..
      · cases reply with
        -- without a socket of the user the loop goes on, and may be over
        | none => exact closeLoop_emptying hempty
        | some n => cases hempty
    | collecting | closing _ _ _ =>
      cases hn
      exact .loop rfl (hmap (by simp) (by simp) (by simp))
    | stopped | failed => cases hn
    | _ =>
      cases hn
      exact .outside rfl (hmap (by simp) (by simp) (by simp))
  | raised hn hf =>
    cases pc with
    | popping _ _ _ | collecting =>
      cases hn
      cases hf
    | closing _ _ _ =>
      cases hn
      exact .loop rfl rfl
    | _ => exact .outside rfl rfl
  | @applied op k r c' _ reply hn hf hx =>
    have hmap := Shared.exec_map (i := i) hx
    cases pc with
    | popping _ _ _ | collecting =>
      cases hn
      cases hf
    | closing _ _ _ =>
      cases hn
      exact .loop rfl (hmap (by simp) (by simp) (by simp))
    | stopped | failed => cases hn
    | _ =>
      cases hn
      exact .outside rfl (hmap (by simp) (by simp) (by simp))

theorem LifespanPc.meter_active {pc pc' : LifespanPc} {s sh : Shared} {o : Outcome Choice}
    {e : Happened Op Op.Reply} {m : Metrics}
    (h : Advances semantics s (pc.next env i) o sh pc' e)
    (hg : Gauged m.activeConnections (s.connections i).keys.length pc.emptying) :
    Gauged (pc.meter (sh.connections i).keys.length pc' m).activeConnections
      (sh.connections i).keys.length pc'.emptying := by
  obtain ⟨hle, hempty⟩ := next_emptied h
  rw [LifespanPc.meter]
  split
  · exact ⟨le_rfl, fun _ => rfl⟩
  · rename_i hset
    refine ⟨hle.trans hg.le, fun hp => ?_⟩
    rcases hempty hp with ⟨hin, hout⟩ | ⟨hp, hsame⟩
    · simp [hin, hout] at hset
    · rw [hsame]
      exact hg.eq hp

/-- Whether the process is emptying its map. -/
def World.emptying (w : World) (i : String) : Bool :=
  (w.processes i).any (·.lifespan.emptying)

/-- The gauge of every instance. -/
def ActiveKept (p : World × (String → Metrics)) : Prop :=
  ∀ i, Gauged (p.2 i).activeConnections (p.1.activeConnections i) (p.1.emptying i)

/-- Only the shutdown itself begins and ends to empty the map. -/
theorem Stepped.emptying_same (h : Stepped env w a w') (hcrash : a ≠ .crash i)
    (hlifespan : ∀ o, a ≠ .task (.lifespan i) o) : w'.emptying i = w.emptying i := by
  unfold World.emptying
  cases hp' : w'.processes i with
  | none =>
    cases hp : w.processes i with
    | none => rfl
    | some p =>
      rcases h.process_next hp with ha | ⟨p', hnext, -⟩
      · exact absurd ha hcrash
      · cases hp'.symm.trans hnext
  | some p' =>
    cases h.process_cases hp' with
    | same hp | subscriber hp _ _ _ _ _ | liveness hp _ _ _ _ => simp [hp]
    | new hnone _ _ => simp [hnone, Process.start, LifespanPc.emptying]
    | lifespan _ ha _ _ _ => exact absurd ha (hlifespan _)

theorem Gauged.of_meter {active active' size size' : Nat} {emptying : Bool}
    (h : Gauged active size emptying) (hm : active' = size' ∨ active' = active ∧ size' = size) :
    Gauged active' size' emptying := by
  rcases hm with rfl | ⟨rfl, rfl⟩
  · exact ⟨le_rfl, fun _ => rfl⟩
  · exact h

theorem ActiveKept.step {m' : String → Metrics} (h : ActiveKept (w, m))
    (hstep : Stepped env w a w') (hm : m' = w.meter a w' m) : ActiveKept (w', m') := by
  intro i
  have hg := h i
  have hcase := hstep.meter_cases m i
  simp only [hm]
  generalize w.meter a w' m i = mi at hcase
  cases hcase with
  | aside haside =>
    rw [World.activeConnections, haside.connections hstep,
      hstep.emptying_same haside.crash haside.lifespan]
    exact hg
  | crashed ha =>
    -- the gauge and the map go together
    subst ha
    cases hstep
    refine ⟨?_, fun _ => ?_⟩ <;> simp [World.activeConnections, World.crash,
      Shared.setConnections, Dict.keys]
  | session hs hi ha hadv hsh _ =>
    rw [hstep.emptying_same (by simp [ha]) (by simp [ha])]
    refine hg.of_meter ((GatewayPc.meter_active (hi ▸ hadv)).imp_right ?_)
    rintro ⟨hact, hmap⟩
    exact ⟨hact, by rw [World.activeConnections, hsh, hmap]; rfl⟩
  | request hr hi ha hadv hsh _ =>
    rw [hstep.emptying_same (by simp [ha]) (by simp [ha])]
    obtain ⟨hact, hmap⟩ := CreatePc.meter_active (m := m i) (i := i) hadv
    exact hg.of_meter (.inr ⟨hact, by rw [World.activeConnections, hsh, hmap]; rfl⟩)
  | subscriber hp ha hadv hsh _ =>
    rw [hstep.emptying_same (by simp [ha]) (by simp [ha])]
    refine hg.of_meter ((SubscriberPc.meter_active hadv).imp_right ?_)
    rintro ⟨hact, hmap⟩
    exact ⟨hact, by rw [World.activeConnections, hsh, hmap]; rfl⟩
  | lifespan hp ha hadv hsh hp' =>
    have hnext := LifespanPc.meter_active hadv
      (by simpa [World.emptying, hp, World.activeConnections] using hg)
    simpa [World.emptying, hp', World.activeConnections, hsh] using hnext

/-- Whatever fails: the gauge of an instance shows at least the number of its connections,
and just that number unless the shutdown is emptying the map. -/
theorem active_connections_shown {p : World × (String → Metrics)}
    (h : Reach (metered env) (fun _ _ => True) p) (i : String) :
    Gauged (p.2 i).activeConnections (p.1.activeConnections i) (p.1.emptying i) := by
  refine h.invariant (I := ActiveKept) ?_ (fun {p p' a} _ _ ih hstep => ?_) i
  · exact fun i => ⟨le_rfl, fun _ => rfl⟩
  · obtain ⟨hworld, hnote⟩ := Machine.noting_step.mp hstep
    exact ih.step (World.stepped hworld) hnote

/-- In the loop the gauge still shows a connection that the map has lost. -/
theorem active_connections_shown_shutdown : ∃ p,
    (metered plainEnv).run (metered plainEnv).init
      (soloRun ++ List.replicate 3 (.ok (.lifespan "a"))) = some p ∧
    (p.2 "a").activeConnections = 1 ∧ p.1.activeConnections "a" = 0 ∧
    Gauged (p.2 "a").activeConnections (p.1.activeConnections "a") (p.1.emptying "a") := by
  obtain ⟨p, hp, hactive, hsize⟩ : ∃ p, (metered plainEnv).run (metered plainEnv).init
        (soloRun ++ List.replicate 3 (.ok (.lifespan "a"))) = some p ∧
      (p.2 "a").activeConnections = 1 ∧ p.1.activeConnections "a" = 0 := ⟨_, rfl, rfl, rfl⟩
  exact ⟨p, hp, hactive, hsize,
    active_connections_shown (.of_actions (fun _ _ _ => trivial) hp) "a"⟩

end RealtimeNotify.App
