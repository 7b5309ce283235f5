import RealtimeNotify.Runs.Duplicates

/-!
# The life of a socket

A session accepts a socket or refuses it, and its subscriber and the shutdown of its instance
get at the socket through the connection map. Nothing is sent or received before the socket
was accepted, a refused one is left alone, and the server closes a socket once.
-/

namespace RealtimeNotify.App

open RealtimeNotify.Lib RealtimeNotify.Python

variable {env : Env} {w w' : World} {a : Action} {n : Nat} {i : String}

/-! ## Stages -/

/-- How far the calls on a socket have come. -/
inductive SocketStage where
  | connecting
  | refused
  | connected
  | closing
  deriving DecidableEq

def Op.socket? : Op → Option Nat
  | .accept n | .close n _ _ | .send n _ | .receive n => some n
  | _ => none

def Event.call (e : Event) : Op :=
  match e.what with
  | .returned op _ | .raised op _ => op

def Event.returned (e : Event) : Bool :=
  match e.what with
  | .returned .. => true
  | .raised .. => false

namespace SocketStage

/-- A call, and whether it returned; `none` where it is out of turn. -/
def after (returned : Bool) : SocketStage → Op → Option SocketStage
  | connecting, .accept _ => some (if returned then connected else refused)
  | connecting, .close _ 1008 _ => some refused
  | connected, .close _ 1001 _ => some closing
  | connected, .send .. | connected, .receive _ => some connected
  | closing, .send .. | closing, .receive _ => some closing
  | _, _ => none

/-- The handshake is over and the client is in. -/
def accepted : SocketStage → Bool
  | connecting | refused => false
  | connected | closing => true

/-- Frames go over an accepted socket only, and leave its stage. -/
theorem after_frame {st : SocketStage} {op : Op} {returned : Bool} (hst : st.accepted = true)
    (hop : (∃ frame, op = .send n frame) ∨ op = .receive n) : st.after returned op = some st := by
  rcases hop with ⟨frame, rfl⟩ | rfl <;> cases st <;> first | rfl | cases hst

end SocketStage

/-- The stage of socket `n` after what was called on it. -/
def stage (n : Nat) : List Event → Option SocketStage
  | [] => some .connecting
  | e :: log => (stage n log).bind fun st =>
      if e.call.socket? = some n then st.after e.returned e.call else some st

/-! ## Callers -/

/-- The session has its ticket to redeem, or its socket to accept or refuse. -/
def GatewayPc.handshaking : GatewayPc → Bool
  | redeem _ | reject | accept _ => true
  | _ => false

/-- Who calls what on socket `n`. -/
inductive SocketCaller (w : World) (n : Nat) : TaskId → Op → Prop where
  | accept {s u} : w.sessions n = some s → s.pc = .accept u →
      SocketCaller w n (.session n) (.accept n)
  | reject {s} : w.sessions n = some s → s.pc = .reject →
      SocketCaller w n (.session n) (.close n 1008 "Invalid or expired ticket")
  | own {s u op} : w.sessions n = some s → s.pc.user? = some u → s.pc.handshaking = false →
      (∃ frame, op = .send n frame) ∨ op = .receive n → SocketCaller w n (.session n) op
  | live {i p u frame} : w.processes i = some p → p.subscriber = .sending u n frame →
      SocketCaller w n (.subscriber i) (.send n frame)
  | shutdown {i p all todo} : w.processes i = some p → p.lifespan = .closing all n todo →
      SocketCaller w n (.lifespan i) (.close n 1001 "Server shutting down")

theorem World.socketCaller {id : TaskId} {op : Op} (h : w.awaits env id = some op)
    (hop : op.socket? = some n) : SocketCaller w n id op := by
  cases World.awaiting h with
  | @session m s _ hs h =>
    obtain ⟨i, c, pc⟩ := s
    cases pc with
    | accept u =>
      cases h
      obtain rfl := Option.some.inj hop
      exact .accept hs rfl
    | reject =>
      cases h
      obtain rfl := Option.some.inj hop
      exact .reject hs rfl
    | backlogSend u rows | respond u frame =>
      cases h
      obtain rfl := Option.some.inj hop
      exact .own hs rfl rfl (.inl ⟨_, rfl⟩)
    | receive u =>
      cases h
      obtain rfl := Option.some.inj hop
      exact .own hs rfl rfl (.inr rfl)
    | _ => cases h <;> simp [Op.socket?] at hop
  | @request m r _ hr h =>
    obtain ⟨i, client, body, pc⟩ := r
    cases pc <;> cases h <;> simp [Op.socket?] at hop
  | @ticketRequest m r _ hr h =>
    obtain ⟨i, claims, token, pc⟩ := r
    cases pc with
    | issue userId ticket =>
      cases h
      cases hop
    | _ => cases h
  | @subscriber i p _ hp h =>
    obtain ⟨_, pc, _⟩ := p
    cases pc with
    | sending u m frame =>
      cases h
      obtain rfl := Option.some.inj hop
      exact .live hp rfl
    | _ => cases h <;> simp [Op.socket?] at hop
  | @lifespan i p _ hp h =>
    obtain ⟨pc, _, _⟩ := p
    cases pc with
    | closing all m todo =>
      cases h
      obtain rfl := Option.some.inj hop
      exact .shutdown hp rfl
    | _ => cases h <;> simp [Op.socket?] at hop
  | @liveness i p _ hp h =>
    obtain ⟨_, _, pc⟩ := p
    cases pc <;> (cases h; cases hop)

/-- What a step of a task adds to the log. -/
theorem Stepped.call_cases (h : Stepped env w a w') :
    (w'.log = w.log ∧ ∀ id o, a ≠ .task id o) ∨
      ∃ id o op e, a = .task id o ∧ w.awaits env id = some op ∧ w'.log = e :: w.log ∧
        e.call = op ∧ e.returned = !o.raises := by
  obtain ⟨sh, log, -, hlog, ht⟩ := h.touched
  cases ht with
  | tick | expireDedup | crash => exact .inl ⟨hlog, by simp⟩
  | started hne => exact .inl ⟨hlog, hne⟩
  | returned ha _ | raised ha _ | applied ha _ _ =>
    exact .inr ⟨_, _, _, _, rfl, ha, hlog, rfl, rfl⟩

/-- No way leads back into the handshake. -/
theorem GatewayPc.handshaking_next {c : String} {pc r : GatewayPc} {op : Op}
    {k : op.Reply → GatewayPc} (h : pc.next env n i c = .call op k r) :
    r.handshaking = false ∧ ∀ reply, (k reply).handshaking = true → pc.handshaking = true := by
  cases pc with
  | onlineSeen u =>
    cases h
    refine ⟨rfl, fun reply hk => ?_⟩
    cases hu : UUID.ofString u <;> simp [hu, handshaking] at hk
  | receive u =>
    cases h
    refine ⟨rfl, fun reply hk => ?_⟩
    cases reply <;> cases hk
  | allow u fields =>
    cases h
    refine ⟨rfl, fun reply hk => ?_⟩
    cases reply with
    | false => cases hk
    | true =>
      simp only [if_true, routed] at hk
      split at hk <;> try cases hk
      split at hk <;> cases hk
  | ended => cases h
  | _ =>
    cases h
    exact ⟨rfl, fun reply hk => by first | rfl | cases hk⟩

/-! ## Whoever will close a socket -/

/-- Where the shutdown gets at a socket. -/
inductive Place where
  | joining
  | entry (i u : String)
  | closing (i : String)

/-- The session is about to add its socket, the map has it, or the shutdown closes it. -/
def World.holds (w : World) (n : Nat) : Place → Prop
  | .joining => ∃ s u, w.sessions n = some s ∧ s.pc = .add u
  | .entry i u => (w.shared.connections i).get u = some n
  | .closing i => ∃ p all todo, w.processes i = some p ∧ p.lifespan = .closing all n todo

/-- `add` puts the socket into the map and `close_all` takes it out. -/
inductive Moved (w : World) (a : Action) (n : Nat) : Place → Place → Prop where
  | added {s u o} : w.sessions n = some s → s.pc = .add u → a = .task (.session n) o →
      Moved w a n .joining (.entry s.instanceId u)
  | popped {i p all u todo o} : w.processes i = some p → p.lifespan = .popping all u todo →
      a = .task (.lifespan i) o → (w.shared.connections i).get u = some n →
      Moved w a n (.entry i u) (.closing i)

theorem Moved.holds {p q : Place} (h : Moved w a n q p) : w.holds n q := by
  cases h with
  | added hs hpc _ => exact ⟨_, _, hs, hpc⟩
  | popped _ _ _ hget => exact hget

theorem Moved.unique {p p' q : Place} (h : Moved w a n q p) (h' : Moved w a n q p') : p = p' := by
  cases h with
  | added hs hpc _ =>
    cases h' with
    | added hs' hpc' _ =>
      obtain rfl := Option.some.inj (hs.symm.trans hs')
      rw [GatewayPc.add.inj (hpc.symm.trans hpc')]
  | popped _ _ _ _ =>
    cases h' with
    | popped _ _ _ _ => rfl

/-- The step of the shutdown is that of `lifespan`. -/
theorem Stepped.lifespan_own (h : Stepped env w a w') {p : Process} {o : Outcome Choice}
    (ha : a = .task (.lifespan i) o) (hp : w.processes i = some p) :
    ∃ sh pc e, w'.processes i = some { p with lifespan := pc } ∧ w'.shared = sh ∧
      Advances semantics w.shared (p.lifespan.next env i) o sh pc e := by
  cases h with
  | lifespan hp' hadv =>
    cases ha
    obtain rfl := Option.some.inj (hp.symm.trans hp')
    exact ⟨_, _, _, Function.update_self .., rfl, hadv⟩
  | _ => cases ha

/-- What was moved is gone from where it was. -/
theorem Moved.gone {p q : Place} (h : Moved w a n q p) (hstep : Stepped env w a w') :
    ¬ w'.holds n q := by
  cases h with
  | added hs hpc ha =>
    rintro ⟨s', u', hs', hpc'⟩
    obtain ⟨_, pc, _, hs'', hadv⟩ := hstep.session_own ha hs
    obtain rfl := Option.some.inj (hs'.symm.trans hs'')
    rw [hpc] at hadv
    cases hadv with
    | returned hn _ | raised hn _ | applied hn _ _ =>
      cases hn
      cases hpc'
  | @popped i p all u todo o hp hpc ha hget =>
    intro hget'
    obtain ⟨sh, _, _, -, hsh, hadv⟩ := hstep.lifespan_own ha hp
    rw [hpc] at hadv
    change (w'.shared.connections i).get u = some n at hget'
    cases hadv with
    | @returned op k r c _ reply hn hx =>
      cases hn
      obtain ⟨rfl, -⟩ : w.shared.setConnections i ((w.shared.connections i).pop u) = sh ∧ _ :=
        Prod.mk.inj (Option.some.inj hx)
      rw [hsh, Shared.get_pop, if_pos ⟨rfl, rfl⟩] at hget'
      cases hget'
    | raised hn hf | applied hn hf _ =>
      cases hn
      cases hf

theorem LifespanPc.closeLoop_ne {all todo all' todo' : List String} :
    closeLoop all todo ≠ .closing all' n todo' := by
  cases todo with
  | nil => cases all <;> simp [closeLoop, unregisterLoop]
  | cons u todo => simp [closeLoop]

/-- The shutdown closes a socket that it took out of the map. -/
theorem LifespanPc.popping_of_closing {pc r : LifespanPc} {op : Op} {k : op.Reply → LifespanPc}
    (h : pc.next env i = .call op k r) {s sh : Shared} {c : Choice} {reply : op.Reply}
    (hx : s.exec op c = some (sh, reply)) {all todo : List String}
    (hk : k reply = .closing all n todo) : ∃ u, pc = .popping all u todo ∧
      (s.connections i).get u = some n := by
  cases pc with
  | popping all' u todo' =>
    cases h
    obtain ⟨-, hreply⟩ : _ ∧ (s.connections i).get u = reply :=
      Prod.mk.inj (Option.some.inj hx)
    cases reply with
    | none => exact absurd hk closeLoop_ne
    | some m =>
      obtain ⟨rfl, rfl, rfl⟩ := LifespanPc.closing.inj hk
      exact ⟨u, rfl, hreply⟩
  | collecting | closing _ _ _ =>
    cases h
    exact absurd hk closeLoop_ne
  | clearing u todo' =>
    cases h
    cases todo' <;> cases hk
  | stopped | failed => cases h
  | _ =>
    cases h
    cases hk

theorem LifespanPc.not_closing_raised {pc r : LifespanPc} {op : Op} {k : op.Reply → LifespanPc}
    (h : pc.next env i = .call op k r) {all todo : List String} : r ≠ .closing all n todo := by
  cases pc with
  | closing _ _ _ =>
    cases h
    exact closeLoop_ne
  | stopped | failed => cases h
  | _ =>
    cases h
    simp

theorem Stepped.closing_cases (h : Stepped env w a w') {p' : Process} {all todo : List String}
    (hp' : w'.processes i = some p') (hpc : p'.lifespan = .closing all n todo) :
    w.holds n (.closing i) ∧ (∀ o, a ≠ .task (.lifespan i) o) ∨
      ∃ u, Moved w a n (.entry i u) (.closing i) := by
  have hmoved : ∀ o, a = .task (.lifespan i) o → ∃ u, Moved w a n (.entry i u) (.closing i) := by
    intro o ha
    obtain ⟨p, hp⟩ : ∃ p, w.processes i = some p := by
      cases h.process_cases hp' with
      | same hp | subscriber hp _ _ _ _ _ | lifespan hp _ _ _ _ | liveness hp _ _ _ _ =>
        exact ⟨_, hp⟩
      | new hnone _ hlog =>
        cases hpc
    obtain ⟨sh, pc, _, hown, -, hadv⟩ := h.lifespan_own ha hp
    obtain rfl := Option.some.inj (hp'.symm.trans hown)
    cases hadv with
    | raised hn _ | applied hn _ _ => exact absurd hpc (LifespanPc.not_closing_raised hn)
    | returned hn hx =>
      obtain ⟨u, hpopping, hget⟩ := LifespanPc.popping_of_closing hn hx hpc
      exact ⟨u, .popped hp hpopping ha hget⟩
  by_cases ha : ∃ o, a = .task (.lifespan i) o
  · obtain ⟨o, ha⟩ := ha
    exact .inr (hmoved o ha)
  · have hne : ∀ o, a ≠ .task (.lifespan i) o := fun o ho => ha ⟨o, ho⟩
    cases h.process_cases hp' with
    | same hp => exact .inl ⟨⟨_, _, _, hp, hpc⟩, hne⟩
    | new _ _ _ => cases hpc
    | subscriber hp _ _ _ _ _ | liveness hp _ _ _ _ => exact .inl ⟨⟨_, _, _, hp, hpc⟩, hne⟩
    | lifespan _ ho _ _ _ => exact absurd ho (hne _)

/-- How a socket came to be where it is: it was there, it was moved, or it was accepted. -/
inductive HoldsCase (env : Env) (w : World) (a : Action) (w' : World) (n : Nat) : Place → Prop
    where
  | kept {p} : w.holds n p → HoldsCase env w a w' n p
  | moved {q p} : Moved w a n q p → HoldsCase env w a w' n p
  | accepted {s u c} : w.sessions n = some s → s.pc = .accept u → a = .task (.session n) (.ok c) →
      HoldsCase env w a w' n .joining

/-- `add` comes right after `accept`. -/
theorem GatewayPc.accept_of_add {c u : String} {pc r : GatewayPc} {op : Op}
    {k : op.Reply → GatewayPc} (h : pc.next env n i c = .call op k r) {reply : op.Reply}
    (hk : k reply = .add u) : pc = .accept u := by
  cases pc with
  | redeem t =>
    cases h
    cases reply <;> cases hk
  | accept v =>
    cases h
    cases hk
    rfl
  | onlineSeen v =>
    cases h
    cases hv : UUID.ofString v <;> simp [hv] at hk
  | receive v =>
    cases h
    cases reply <;> cases hk
  | allow v fields =>
    cases h
    have hc := congrArg GatewayPc.registered? hk
    cases reply with
    | false => cases hk
    | true =>
      simp only [if_true, routed] at hk
      split at hk <;> try cases hk
      split at hk <;> cases hk
  | ended => cases h
  | _ =>
    cases h
    cases hk

theorem Stepped.holds_cases (h : Stepped env w a w') {p : Place} (hp : w'.holds n p) :
    HoldsCase env w a w' n p := by
  cases p with
  | joining =>
    obtain ⟨s', u, hs', hpc⟩ := hp
    cases h.session_cases hs' with
    | same hs _ _ => exact .kept ⟨s', u, hs, hpc⟩
    | new _ _ _ _ => cases hpc
    | killed _ _ _ => cases hpc
    | moved hs ha hadv _ _ =>
      cases hadv with
      | returned hn _ => exact .accepted hs (GatewayPc.accept_of_add hn hpc) ha
      | raised hn _ | applied hn _ _ =>
        have hleaving : (GatewayPc.add u).leaving = true := hpc ▸ GatewayPc.leaving_raised hn
        cases hleaving
  | entry i u =>
    cases h.map_cases i u with
    | kept hsame => exact .kept (hsame.symm.trans hp)
    | added ha hs hi hpc hget =>
      obtain rfl := Option.some.inj (hget.symm.trans hp)
      subst hi
      exact .moved (.added hs hpc ha)
    | removed _ _ _ hnone | crashed _ hnone => cases hnone.symm.trans hp
  | closing i =>
    obtain ⟨p', all, todo, hp', hpc⟩ := hp
    rcases h.closing_cases hp' hpc with ⟨hold, -⟩ | ⟨u, hmoved⟩
    · exact .kept hold
    · exact .moved hmoved

/-! ## Calls in turn -/

def World.stage (w : World) (n : Nat) : Option SocketStage := App.stage n w.log

/-- The session is past the handshake with its user, or the subscriber has the socket. -/
def World.joined (w : World) (n : Nat) : Prop :=
  (∃ s u, w.sessions n = some s ∧ s.pc.user? = some u ∧ s.pc.handshaking = false) ∨
    ∃ i p u frame, w.processes i = some p ∧ p.subscriber = .sending u n frame

/-- What a step does to the stage of socket `n`. -/
inductive StageCase (env : Env) (w : World) (a : Action) (w' : World) (n : Nat) : Prop where
  | kept : w'.stage n = w.stage n → (∀ s u o, w.sessions n = some s → s.pc = .accept u →
      a ≠ .task (.session n) o) → StageCase env w a w' n
  | accepted {s u o} : w.sessions n = some s → s.pc = .accept u → a = .task (.session n) o →
      w'.stage n = some (if o.raises then .refused else .connected) → StageCase env w a w' n
  | refused {s o} : w.sessions n = some s → s.pc = .reject → a = .task (.session n) o →
      w'.stage n = some .refused → StageCase env w a w' n
  | closed {i o} : w.holds n (.closing i) → a = .task (.lifespan i) o →
      w'.stage n = some .closing → StageCase env w a w' n

/-- The calls on every socket are in turn, and who is to make the next one knows its stage. A
socket is in one place at a time. -/
structure InTurn (w : World) : Prop where
  handshake : ∀ n, (∀ s, w.sessions n = some s → s.pc.handshaking = true) →
    w.stage n = some .connecting
  joined : ∀ n, w.joined n → ∃ st, w.stage n = some st ∧ st.accepted = true
  held : ∀ n p, w.holds n p → w.stage n = some .connected
  unique : ∀ n p q, w.holds n p → w.holds n q → p = q
  total : ∀ n, ∃ st, w.stage n = some st

/-- A socket in the handshake is nowhere yet. -/
theorem InTurn.handshake_of (h : InTurn w) {s : Session} (hs : w.sessions n = some s)
    (hpc : s.pc.handshaking = true) : w.stage n = some .connecting := by
  refine h.handshake n fun s' hs' => ?_
  obtain rfl := Option.some.inj (hs.symm.trans hs')
  exact hpc

theorem InTurn.stage_cases (h : InTurn w) (hstep : Stepped env w a w') (n : Nat) :
    StageCase env w a w' n := by
  rcases hstep.call_cases with ⟨hlog, hne⟩ | ⟨id, o, op, e, ha, haw, hlog, hop, hret⟩
  · exact .kept (by rw [World.stage, World.stage, hlog]) fun _ _ o _ _ => hne _ o
  · have hstage : w'.stage n = (w.stage n).bind fun st =>
        if op.socket? = some n then st.after (!o.raises) op else some st := by
      rw [World.stage, hlog, stage, hop, hret]
      rfl
    by_cases hsock : op.socket? = some n
    · simp only [hsock, if_true] at hstage
      cases World.socketCaller haw hsock with
      | @accept s u hs hpc =>
        rw [h.handshake_of hs (by rw [hpc]; rfl)] at hstage
        refine .accepted hs hpc ha (hstage.trans ?_)
        cases o <;> rfl
      | @reject s hs hpc =>
        rw [h.handshake_of hs (by rw [hpc]; rfl)] at hstage
        exact .refused hs hpc ha hstage
      | @own s u _ hs hu hdone hframe =>
        obtain ⟨st, hst, hacc⟩ := h.joined n (.inl ⟨s, u, hs, hu, hdone⟩)
        rw [hst, Option.bind_some, SocketStage.after_frame hacc hframe, ← hst] at hstage
        refine .kept hstage fun s' u' o' hs' hpc' => ?_
        obtain rfl := Option.some.inj (hs.symm.trans hs')
        rw [hpc'] at hdone
        cases hdone
      | live hp hpc =>
        obtain ⟨st, hst, hacc⟩ := h.joined n (.inr ⟨_, _, _, _, hp, hpc⟩)
        rw [hst, Option.bind_some, SocketStage.after_frame hacc (.inl ⟨_, rfl⟩), ← hst] at hstage
        exact .kept hstage fun _ _ _ _ _ ha' => by cases ha.symm.trans ha'
      | shutdown hp hpc =>
        have hheld : w.holds n (.closing _) := ⟨_, _, _, hp, hpc⟩
        rw [h.held n _ hheld] at hstage
        exact .closed hheld ha hstage
    · simp only [hsock, if_false, Option.bind_fun_some] at hstage
      refine .kept hstage fun s u o' hs hpc ha' => hsock ?_
      cases ha.symm.trans ha'
      rw [World.awaits_session hs, hpc] at haw
      cases haw
      rfl

theorem InTurn.handshake_step (h : InTurn w) (hstep : Stepped env w a w')
    (hn : ∀ s, w'.sessions n = some s → s.pc.handshaking = true) :
    w'.stage n = some .connecting := by
  have hold : ∀ s, w.sessions n = some s → s.pc.handshaking = true := by
    intro s hs
    obtain ⟨s', hs', hmove⟩ := hstep.session_move hs
    have hshaking := hn s' hs'
    cases hmove with
    | same _ _ => exact hshaking
    | killed _ _ => cases hshaking
    | moved _ hadv _ _ =>
      cases hadv with
      | returned hx _ => exact (GatewayPc.handshaking_next hx).2 _ hshaking
      | raised hx _ | applied hx _ _ =>
        cases (GatewayPc.handshaking_next hx).1.symm.trans hshaking
  have hconnecting := h.handshake n hold
  cases h.stage_cases hstep n with
  | kept hsame _ => exact hsame.trans hconnecting
  | accepted hs hpc ha _ | refused hs hpc ha _ =>
    -- the session has left the handshake with this step
    obtain ⟨sh, pc, e, hs', hadv⟩ := hstep.session_own ha hs
    have hshaking := hn _ hs'
    rw [hpc] at hadv
    cases hadv with
    | returned hx _ | raised hx _ | applied hx _ _ =>
      cases hx
      cases hshaking
  | closed hheld _ _ => cases (h.held n _ hheld).symm.trans hconnecting

theorem InTurn.stage_of_accept (h : InTurn w) (hstep : Stepped env w a w') {s : Session}
    {u : String} {c : Choice} (hs : w.sessions n = some s) (hpc : s.pc = .accept u)
    (ha : a = .task (.session n) (.ok c)) : w'.stage n = some .connected := by
  cases h.stage_cases hstep n with
  | kept _ hne => exact absurd ha (hne _ _ _ hs hpc)
  | accepted _ _ ha' hstage =>
    cases ha.symm.trans ha'
    exact hstage
  | refused hs' hpc' _ _ =>
    obtain rfl := Option.some.inj (hs.symm.trans hs')
    cases hpc.symm.trans hpc'
  | closed _ ha' _ => cases ha.symm.trans ha'

theorem InTurn.held_step (h : InTurn w) (hstep : Stepped env w a w') {p : Place}
    (hp : w'.holds n p) : w'.stage n = some .connected := by
  have hstages := h.stage_cases hstep n
  cases hstep.holds_cases hp with
  | kept hold =>
    have hconnected := h.held n p hold
    cases hstages with
    | kept hsame _ => exact hsame.trans hconnected
    | accepted hs hpc _ _ | refused hs hpc _ _ =>
      cases (h.handshake_of hs (by rw [hpc]; rfl)).symm.trans hconnected
    | closed hheld ha _ =>
      -- the place is the one that the shutdown has just left
      obtain rfl := h.unique n _ _ hheld hold
      obtain ⟨p', all, todo, hp', hpc⟩ := hp
      rcases hstep.closing_cases hp' hpc with ⟨-, hne⟩ | ⟨u, hmoved⟩
      · exact absurd ha (hne _)
      · cases h.unique n _ _ hmoved.holds hheld
  | moved hmoved =>
    have hconnected := h.held n _ hmoved.holds
    cases hstages with
    | kept hsame _ => exact hsame.trans hconnected
    | accepted hs hpc _ _ | refused hs hpc _ _ =>
      cases (h.handshake_of hs (by rw [hpc]; rfl)).symm.trans hconnected
    | closed hheld _ _ =>
      obtain rfl := h.unique n _ _ hmoved.holds hheld
      cases hmoved
  | accepted hs hpc ha => exact h.stage_of_accept hstep hs hpc ha

theorem InTurn.unique_step (h : InTurn w) (hstep : Stepped env w a w') {p q : Place}
    (hp : w'.holds n p) (hq : w'.holds n q) : p = q := by
  -- a socket that is just accepted was nowhere
  have hfresh : ∀ {s u p'}, w.sessions n = some s → s.pc = .accept u → w.holds n p' → False := by
    intro s u p' hs hpc hheld
    cases (h.handshake_of hs (by rw [hpc]; rfl)).symm.trans (h.held n p' hheld)
  cases hstep.holds_cases hp with
  | kept hold =>
    cases hstep.holds_cases hq with
    | kept hold' => exact h.unique n p q hold hold'
    | moved hmoved =>
      obtain rfl := h.unique n _ _ hold hmoved.holds
      exact absurd hp (hmoved.gone hstep)
    | accepted hs hpc _ => exact (hfresh hs hpc hold).elim
  | moved hmoved =>
    cases hstep.holds_cases hq with
    | kept hold =>
      obtain rfl := h.unique n _ _ hold hmoved.holds
      exact absurd hq (hmoved.gone hstep)
    | moved hmoved' =>
      obtain rfl := h.unique n _ _ hmoved.holds hmoved'.holds
      exact hmoved.unique hmoved'
    | accepted hs hpc _ => exact (hfresh hs hpc hmoved.holds).elim
  | accepted hs hpc _ =>
    cases hstep.holds_cases hq with
    | kept hold => exact (hfresh hs hpc hold).elim
    | moved hmoved => exact (hfresh hs hpc hmoved.holds).elim
    | accepted _ _ _ => rfl

theorem InTurn.total_step (h : InTurn w) (hstep : Stepped env w a w') (n : Nat) :
    ∃ st, w'.stage n = some st := by
  cases h.stage_cases hstep n with
  | kept hsame _ => exact hsame ▸ h.total n
  | accepted _ _ _ hstage => exact ⟨_, hstage⟩
  | refused _ _ _ hstage | closed _ _ hstage => exact ⟨_, hstage⟩

/-- What was accepted and is not accepted now, is so at no later stage. -/
theorem InTurn.accepted_step (h : InTurn w) (hstep : Stepped env w a w') {st : SocketStage}
    (hst : w.stage n = some st) (hacc : st.accepted = true) :
    ∃ st', w'.stage n = some st' ∧ st'.accepted = true := by
  cases h.stage_cases hstep n with
  | kept hsame _ => exact ⟨st, hsame.trans hst, hacc⟩
  | accepted hs hpc _ _ | refused hs hpc _ _ =>
    cases (h.handshake_of hs (by rw [hpc]; rfl)).symm.trans hst
    cases hacc
  | closed _ _ hstage => exact ⟨_, hstage, rfl⟩

/-- Only `accept`, where it returns, leads out of the handshake and to a user. -/
theorem GatewayPc.accept_of_joined {c u : String} {pc pc' : GatewayPc} {s sh : Shared}
    {o : Outcome Choice} {e : Happened Op Op.Reply}
    (h : Advances semantics s (pc.next env n i c) o sh pc' e) (hpc : pc.handshaking = true)
    (hu : pc'.user? = some u) (hdone : pc'.handshaking = false) :
    ∃ v choice, pc = .accept v ∧ o = .ok choice := by
  cases pc with
  | redeem t =>
    cases h with
    | @returned _ _ _ _ _ reply hx _ =>
      cases hx
      cases reply <;> cases hdone
    | raised hx _ | applied hx _ _ =>
      cases hx
      cases hu
  | reject =>
    cases h with
    | returned hx _ | raised hx _ | applied hx _ _ =>
      cases hx
      cases hu
  | accept v =>
    cases h with
    | returned _ _ => exact ⟨v, _, rfl, rfl⟩
    | raised hx _ | applied hx _ _ =>
      cases hx
      cases hu
  | _ => cases hpc

theorem InTurn.joined_step (h : InTurn w) (hstep : Stepped env w a w') (hn : w'.joined n) :
    ∃ st, w'.stage n = some st ∧ st.accepted = true := by
  have hold : w.joined n → ∃ st, w'.stage n = some st ∧ st.accepted = true := by
    intro hjoined
    obtain ⟨st, hst, hacc⟩ := h.joined n hjoined
    exact h.accepted_step hstep hst hacc
  rcases hn with ⟨s', u, hs', hu, hdone⟩ | ⟨i, p', u, frame, hp', hpc⟩
  · cases hstep.session_cases hs' with
    | same hs _ _ => exact hold (.inl ⟨s', u, hs, hu, hdone⟩)
    | new _ _ _ _ => cases hdone
    | killed _ _ _ => cases hu
    | @moved s o _ pc _ hs ha hadv _ _ =>
      change pc.user? = some u at hu
      change pc.handshaking = false at hdone
      by_cases hshaking : s.pc.handshaking = true
      · obtain ⟨v, c, hpc, rfl⟩ := GatewayPc.accept_of_joined hadv hshaking hu hdone
        exact ⟨_, h.stage_of_accept hstep hs hpc ha, rfl⟩
      · have hdone' : s.pc.handshaking = false := by simpa using hshaking
        cases hadv with
        | returned hx _ =>
          rcases GatewayPc.user_resume hx hu with hv | ⟨t, hpc⟩
          · exact hold (.inl ⟨s, u, hs, hv, hdone'⟩)
          · rw [hpc] at hdone'
            cases hdone'
        | raised hx _ | applied hx _ _ =>
          exact hold (.inl ⟨s, u, hs, GatewayPc.user_raised hx hu, hdone'⟩)
  · rcases hstep.sending_cases hp' hpc with ⟨p, hp, hsending⟩ | ⟨message, -, -, -, hget, -⟩
    · exact hold (.inr ⟨i, p, u, frame, hp, hsending⟩)
    · -- the subscriber found the socket in the map, where it is an accepted one
      exact h.accepted_step hstep (h.held n (.entry i message.userId) hget) rfl

theorem World.empty_holds {p : Place} : ¬ World.empty.holds n p := by
  cases p with
  | joining =>
    rintro ⟨s, u, hs, -⟩
    cases hs
  | entry i u => exact nofun
  | closing i =>
    rintro ⟨p, all, todo, hp, -⟩
    cases hp

theorem InTurn.init : InTurn .empty where
  handshake _ _ := rfl
  joined n hn := by
    rcases hn with ⟨s, u, hs, -⟩ | ⟨i, p, u, frame, hp, -⟩
    · cases hs
    · cases hp
  held _ _ hp := absurd hp World.empty_holds
  unique _ _ _ hp := absurd hp World.empty_holds
  total _ := ⟨_, rfl⟩

theorem InTurn.of_reachable (h : Reachable env w) : InTurn w := by
  refine h.invariant .init fun _ _ ih hstep => ?_
  have hstepped := World.stepped hstep
  exact ⟨fun _ => ih.handshake_step hstepped, fun _ => ih.joined_step hstepped,
    fun _ _ => ih.held_step hstepped, fun _ _ _ => ih.unique_step hstepped,
    ih.total_step hstepped⟩

/-- Who is in redeemed a ticket. -/
theorem redeemed_of_accepted (h : Reachable env w) : ∀ st, w.stage n = some st →
    st.accepted = true → ∃ u, RedeemedAs w.log n u := by
  refine h.invariant (I := fun w => ∀ st, w.stage n = some st → st.accepted = true →
    ∃ u, RedeemedAs w.log n u) ?_ fun {w w' a} hreach _ ih hstep st hst hacc => ?_
  · rintro _ ⟨⟩ hacc
    cases hacc
  · have hstepped := World.stepped hstep
    have hturn := InTurn.of_reachable hreach
    cases hturn.stage_cases hstepped n with
    | kept hsame _ =>
      obtain ⟨u, hu⟩ := ih st (hsame.symm.trans hst) hacc
      exact ⟨u, hu.mono hstepped.log_subset⟩
    | @accepted s u _ hs hpc _ _ =>
      have hu := (Routed.of_reachable hreach).user n s u hs (by rw [hpc]; rfl)
      exact ⟨u, hu.mono hstepped.log_subset⟩
    | refused _ _ _ hstage =>
      cases hst.symm.trans hstage
      cases hacc
    | closed hheld _ _ =>
      obtain ⟨u, hu⟩ := ih _ (hturn.held n _ hheld) rfl
      exact ⟨u, hu.mono hstepped.log_subset⟩

/-- What was called on a socket, by whichever task, was called in turn: up to the handshake
only `accept` or the refusal, frames on an accepted socket only, and one call of `close` at
the shutdown. -/
structure CalledInTurn (w : World) (n : Nat) : Prop where
  stage : ∃ st, stage n w.log = some st
  ticket : ∀ st, App.stage n w.log = some st → st.accepted = true → ∃ u, RedeemedAs w.log n u
  place : ∀ p q, w.holds n p → w.holds n q → p = q

theorem sockets_called_in_turn (h : Reachable env w) (n : Nat) : CalledInTurn w n where
  stage := (InTurn.of_reachable h).total n
  ticket := redeemed_of_accepted h
  place := (InTurn.of_reachable h).unique n

/-- The instance of a connected client shuts down. -/
theorem sockets_called_in_turn_shutdown : ∃ w, (platform plainEnv).run .empty
      (soloRun ++ List.replicate 4 (.ok (.lifespan "a"))) = some w ∧
    stage 0 w.log = some .closing ∧ CalledInTurn w 0 := by
  obtain ⟨w, hw, hstage⟩ : ∃ w, (platform plainEnv).run .empty
        (soloRun ++ List.replicate 4 (.ok (.lifespan "a"))) = some w ∧
      stage 0 w.log = some .closing := ⟨_, rfl, rfl⟩
  exact ⟨w, hw, hstage, sockets_called_in_turn (.of_run hw) 0⟩

end RealtimeNotify.App
