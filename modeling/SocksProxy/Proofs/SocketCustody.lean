import SocksProxy.Proofs.Conduct

/-!
# Custody of the sockets of a session

The sockets of a session are numbered in the order in which they are opened, that of the client
being 0. A session uses a socket and closes it by way of the role that the socket has got. In
whatever way it ends, it has then closed each socket once, the client's last, and it has used none
that was closed.
-/

namespace SocksProxy

namespace Session

open SocksProxy.Action

/-- How a socket has been opened. -/
inductive Origin where
  | client
  | dialled (a : SocketAddress)
  | listening (a : SocketAddress)
  | accepted (peer : SocketAddress)
  deriving DecidableEq

/-- The sockets opened so far, the number of the one that has a role, and the numbers of those that
have been closed, in the order of time. -/
structure Custody where
  opened : List Origin
  held : Role → Option Nat
  closings : List Nat

namespace Custody

def start : Custody where
  opened := [.client]
  held := fun
    | .client => some 0
    | .target | .listener => none
  closings := []

def take (c : Custody) (role : Role) (origin : Origin) : Custody where
  opened := c.opened ++ [origin]
  held := fun other => if other = role then some c.opened.length else c.held other
  closings := c.closings

def release (c : Custody) (role : Role) : Custody where
  opened := c.opened
  held := fun other => if other = role then none else c.held other
  closings := c.closings ++ (c.held role).toList

def note (c : Custody) : Exchange interface → Custody
  | ⟨.connect a, .ok _⟩ => c.take .target (.dialled a)
  | ⟨.listen a, .ok _⟩ => c.take .listener (.listening a)
  | ⟨.accept, .ok peer⟩ => c.take .target (.accepted peer)
  | ⟨.close role, _⟩ => c.release role
  | _ => c

def holders (c : Custody) : List Nat :=
  (c.held .client).toList ++ (c.held .target).toList ++ (c.held .listener).toList

/-- Every socket has either been closed, once, or has one role. -/
def Sound (c : Custody) : Prop := (c.closings ++ c.holders).Perm (List.range c.opened.length)

def Open (c : Custody) (role : Role) : Prop :=
  ∃ i, c.held role = some i ∧ i < c.opened.length ∧ i ∉ c.closings

variable {c : Custody} {role : Role} {i : Nat}

theorem mem_holders (h : c.held role = some i) : i ∈ c.holders := by
  cases role <;> simp [holders, h]

theorem holders_take (h : c.held role = none) (origin : Origin) :
    (c.take role origin).holders.Perm (c.opened.length :: c.holders) := by
  cases role with
  | client => simp [holders, take, h]
  | target => simp [holders, take, h]
  | listener =>
    have hl : (c.take .listener origin).holders =
        ((c.held .client).toList ++ (c.held .target).toList) ++ [c.opened.length] := rfl
    rw [hl, holders, h, Option.toList_none, List.append_nil]
    exact List.perm_append_singleton _ _

theorem holders_release (h : c.held role = some i) :
    c.holders.Perm (i :: (c.release role).holders) := by
  cases role with
  | client => simp [holders, release, h]
  | target => simp [holders, release, h]
  | listener =>
    have hl : (c.release .listener).holders =
        ((c.held .client).toList ++ (c.held .target).toList) ++ [] := rfl
    rw [hl, holders, h, Option.toList_some, List.append_nil]
    exact List.perm_append_singleton _ _

theorem Sound.take (hc : c.Sound) (h : c.held role = none) (origin : Origin) :
    (c.take role origin).Sound := by
  have hp : (c.closings ++ (c.take role origin).holders).Perm
      (c.opened.length :: (c.closings ++ c.holders)) :=
    ((holders_take h origin).append_left _).trans List.perm_middle
  have hr : (c.opened.length :: (c.closings ++ c.holders)).Perm
      (List.range c.opened.length ++ [c.opened.length]) :=
    (hc.cons _).trans (List.perm_append_singleton _ _).symm
  simpa [Sound, Custody.take, List.range_succ] using hp.trans hr

theorem Sound.release (hc : c.Sound) (h : c.held role = some i) : (c.release role).Sound := by
  have hp := ((holders_release h).append_left c.closings).symm.trans hc
  simpa [Sound, Custody.release, h] using hp

theorem Sound.nodup (hc : c.Sound) : (c.closings ++ c.holders).Nodup :=
  hc.nodup_iff.2 List.nodup_range

theorem Sound.isOpen (hc : c.Sound) (h : c.held role = some i) : c.Open role := by
  have hm := mem_holders h
  refine ⟨i, h, ?_, fun hclosed => ?_⟩
  · exact List.mem_range.1 (hc.mem_iff.1 (List.mem_append_right _ hm))
  · exact (List.nodup_append.1 hc.nodup).2.2 i hclosed i hm rfl

/-- The roles that sockets have, among them always that of the client. -/
structure Keeps (c : Custody) (roles : List Role) : Prop where
  sound : c.Sound
  held : ∀ role, (c.held role).isSome = decide (role ∈ roles)
  client : c.held .client = some 0

variable {roles : List Role}

theorem Keeps.isOpen (h : c.Keeps roles) (hr : role ∈ roles) : c.Open role := by
  have hs : (c.held role).isSome = true := by simpa [h.held] using hr
  obtain ⟨i, hi⟩ := Option.isSome_iff_exists.1 hs
  exact h.sound.isOpen hi

theorem Keeps.held_eq_none (h : c.Keeps roles) (hr : role ∉ roles) : c.held role = none := by
  apply Option.isNone_iff_eq_none.1
  simpa [← Option.not_isSome, h.held] using hr

theorem Keeps.target_ne (h : c.Keeps roles) (hi : c.held .target = some i) : i ≠ 0 := by
  have hh := (List.nodup_append.1 h.sound.nodup).2.1
  rintro rfl
  simp [holders, h.client, hi] at hh

theorem Keeps.take (h : c.Keeps roles) (hr : role ∉ roles) (origin : Origin) :
    (c.take role origin).Keeps (role :: roles) := by
  have hnone := h.held_eq_none hr
  refine ⟨h.sound.take hnone origin, fun other => ?_, ?_⟩
  · by_cases ho : other = role
    · simp [Custody.take, ho]
    · simp [Custody.take, ho, h.held]
  · have hc : Role.client ≠ role := by
      rintro rfl
      rw [h.client] at hnone
      cases hnone
    simpa [Custody.take, hc] using h.client

theorem Keeps.release (h : c.Keeps roles) (hr : role ∈ roles) (hc : Role.client ≠ role) :
    (c.release role).Keeps (roles.filter (· ≠ role)) := by
  obtain ⟨i, hi, -⟩ := h.isOpen hr
  refine ⟨h.sound.release hi, fun other => ?_, ?_⟩
  · by_cases ho : other = role
    · simp [Custody.release, ho]
    · simp [Custody.release, ho, h.held]
  · simpa [Custody.release, hc] using h.client

theorem keeps_start : start.Keeps [.client] :=
  ⟨List.Perm.refl _, fun role => by cases role <;> rfl, rfl⟩

/-- Once the client's socket is closed, which is the last one, all are. -/
theorem Keeps.closings_release (h : c.Keeps [.client]) :
    (c.release .client).closings = c.closings ++ [0] ∧
      (c.release .client).closings.Perm (List.range (c.release .client).opened.length) := by
  have htarget : c.held .target = none := h.held_eq_none (by decide)
  have hlistener : c.held .listener = none := h.held_eq_none (by decide)
  have hs := h.sound.release h.client
  have hh : (c.release .client).holders = [] := by
    simp [holders, Custody.release, htarget, hlistener]
  rw [Sound, hh, List.append_nil] at hs
  exact ⟨by simp [Custody.release, h.client], hs⟩

end Custody

/-- The custody of the sockets of a session that has begun with its client only. -/
def custody (es : List (Exchange interface)) : Custody := es.foldl Custody.note .start

theorem custody_append (es rest : List (Exchange interface)) :
    custody (es ++ rest) = rest.foldl Custody.note (custody es) := List.foldl_append

def Request.uses : Request → List Role
  | .client .relay => [.client, .target]
  | .client _ | .clientPeer | .clientLocal => [.client]
  | .lookup _ | .connect _ | .listen _ => []
  | .accept | .listenerLocal => [.listener]
  | .targetLocal | .setOption _ => [.target]
  | .close role => [role]

/-- All sockets are in custody, and the request is about some that have a role. -/
def Usable (es : List (Exchange interface)) (q : Request) : Prop :=
  ∃ roles, (custody es).Keeps roles ∧ ∀ role ∈ q.uses, role ∈ roles

/-- A request that changes nothing in the custody, whatever its answer. -/
def Idle (roles : List Role) (q : Request) : Prop :=
  (∀ role ∈ q.uses, role ∈ roles) ∧ ∀ (c : Custody) answer, c.note ⟨q, answer⟩ = c

section

variable {α : Type} {es rest : List (Exchange interface)} {roles : List Role}

theorem custody_append_of_idle (h : ∀ e ∈ rest, Idle roles e.request) :
    custody (es ++ rest) = custody es := by
  rw [custody_append]
  generalize custody es = c
  induction rest with
  | nil => rfl
  | cons e rest ih =>
    rw [List.foldl_cons, (h e (List.mem_cons_self ..)).2]
    exact ih fun e he => h e (List.mem_cons_of_mem _ he)

open Custody

theorem usable_idle {x : Action interface α} (hk : (custody es).Keeps roles)
    (hx : x.Only (Idle roles)) : Heeds Usable es x fun _ es' => (custody es').Keeps roles := by
  apply heeds_of_only hx
  · intro rest q hrest hq
    refine ⟨roles, ?_, hq.1⟩
    rwa [custody_append_of_idle hrest]
  · intro rest r hrest
    rwa [custody_append_of_idle hrest]

theorem idle_client {q : Connection.Request} (hr : Role.client ∈ roles) (hq : q ≠ .relay) :
    Idle roles (.client q) := by
  refine ⟨fun role h => ?_, fun _ _ => rfl⟩
  have hu : (Request.client q).uses = [.client] := by
    cases q with
    | relay => exact absurd rfl hq
    | _ => rfl
  rw [hu, List.mem_singleton] at h
  rwa [h]

theorem idle_of_makes {operation : Connection.Operation} {replies : List Bytes}
    {stages : List Stage} {q : Connection.Request} (hr : Role.client ∈ roles)
    (h : Connection.Makes operation replies stages q) : Idle roles (.client q) := by
  apply idle_client hr
  rintro rfl
  cases h

theorem idle_refuse (hr : Role.client ∈ roles) (status : ReplyStatus) (e : Error) :
    (refuse status e).Only (Idle roles) :=
  only_onClient ((Connection.refuse_meets status).only.mono fun _ => idle_of_makes hr)

theorem idle_respond (hr : Role.client ∈ roles) (bound : Address) :
    (respond bound).Only (Idle roles) := by
  apply only_onClient
  cases hb : bound.record with
  | ok record => exact (Connection.respond_meets hb).only.mono fun _ => idle_of_makes hr
  | error e => exact (Connection.respond_meets_of_error hb).only.mono fun _ => idle_of_makes hr

theorem idle_relay (hr : Role.client ∈ roles) (ht : Role.target ∈ roles) :
    (onClient Connection.relay).Only (Idle roles) := by
  refine only_onClient (Connection.relay_meets.only.mono ?_)
  rintro q (rfl | rfl | rfl)
  · exact idle_client hr nofun
  · exact ⟨by simpa [Request.uses] using ⟨hr, ht⟩, fun _ _ => rfl⟩
  · exact idle_client hr nofun

theorem idle_resolve (a : Address) : (resolve a).Only (Idle roles) := by
  refine (only_resolve a).mono ?_
  rintro q ⟨name, rfl⟩
  exact ⟨nofun, fun _ _ => rfl⟩

theorem idle_keepAlive (ht : Role.target ∈ roles) (interval : Nat) :
    (keepAlive interval).Only (Idle roles) := by
  refine (only_keepAlive interval).mono ?_
  rintro q ⟨option, rfl⟩
  exact ⟨by simpa [Request.uses] using ht, fun _ _ => rfl⟩

theorem idle_targetLocal (ht : Role.target ∈ roles) : targetLocal.Only (Idle roles) :=
  only_attempt ⟨by simpa [Request.uses] using ht, fun _ _ => rfl⟩

theorem idle_listenerLocal (hl : Role.listener ∈ roles) : listenerLocal.Only (Idle roles) :=
  only_attempt ⟨by simpa [Request.uses] using hl, fun _ _ => rfl⟩

/-- The roles after a request to open a socket, which fails or gets it. -/
def Opens (role : Role) (roles : List Role) (r : Except Error α) (es : List (Exchange interface)) :
    Prop :=
  match r with
  | .ok _ => (custody es).Keeps (role :: roles)
  | .error _ => (custody es).Keeps roles

theorem usable_opens {role : Role} {q : Request} {result : Answer q → Except IoError α}
    (hk : (custody es).Keeps roles) (hr : role ∉ roles) (hu : ∀ other ∈ q.uses, other ∈ roles)
    (hn : ∀ (c : Custody) answer,
      match result answer with
      | .ok _ => ∃ origin, c.note ⟨q, answer⟩ = c.take role origin
      | .error _ => c.note ⟨q, answer⟩ = c) :
    Heeds Usable es (attempt q result) (Opens role roles) := by
  apply heeds_attempt (⟨_, hk, hu⟩)
  intro answer
  have hc : custody (es ++ [⟨q, answer⟩]) = (custody es).note ⟨q, answer⟩ := custody_append es _
  have hanswer := hn (custody es) answer
  cases h : result answer with
  | ok a =>
    rw [h] at hanswer
    obtain ⟨origin, ho⟩ := hanswer
    change (custody (es ++ [⟨q, answer⟩])).Keeps (role :: roles)
    exact hc.trans ho ▸ hk.take hr origin
  | error e =>
    rw [h] at hanswer
    change (custody (es ++ [⟨q, answer⟩])).Keeps roles
    exact hc.trans hanswer ▸ hk

theorem usable_connect (hk : (custody es).Keeps roles) (ht : Role.target ∉ roles)
    (a : SocketAddress) : Heeds Usable es (connect a) (Opens .target roles) := by
  apply usable_opens hk ht (by simp [Request.uses])
  intro c answer
  cases answer with
  | ok u => exact ⟨.dialled a, rfl⟩
  | error e => rfl

theorem usable_listen (hk : (custody es).Keeps roles) (hl : Role.listener ∉ roles)
    (a : SocketAddress) : Heeds Usable es (listen a) (Opens .listener roles) := by
  apply usable_opens hk hl (by simp [Request.uses])
  intro c answer
  cases answer with
  | ok u => exact ⟨.listening a, rfl⟩
  | error e => rfl

theorem usable_accept (hk : (custody es).Keeps roles) (hl : Role.listener ∈ roles)
    (ht : Role.target ∉ roles) : Heeds Usable es accept (Opens .target roles) := by
  apply usable_opens hk ht (by simpa [Request.uses] using hl)
  intro c answer
  cases answer with
  | ok peer => exact ⟨.accepted peer, rfl⟩
  | error e => rfl

theorem usable_closing {role : Role} {x : Action interface α}
    (others : Except Error α → List Role) (hc : Role.client ≠ role)
    (hx : Heeds Usable es x fun r es' => role ∈ others r ∧ (custody es').Keeps (others r)) :
    Heeds Usable es (closing role x) fun r es' =>
      (custody es').Keeps ((others r).filter (· ≠ role)) := by
  apply heeds_closing
  apply hx.mono
  rintro r es' ⟨hr, hk⟩
  refine ⟨⟨_, hk, (by simpa [Request.uses] using hr)⟩, ?_⟩
  rw [custody_append]
  exact hk.release hr hc

theorem usable_dial (hk : (custody es).Keeps [.client]) (config : Configuration)
    (target : Address) : Heeds Usable es (dial config target) (Opens .target [.client]) := by
  apply Heeds.bind _ (usable_idle hk (idle_resolve target))
  · exact fun _ _ h => h
  intro a es₁ h₁
  apply Heeds.bind _ (usable_connect h₁ (by decide) a)
  · exact fun _ _ h => h
  intro u es₂ h₂
  apply (usable_idle h₂ (idle_keepAlive (by decide) config.keepalive)).outcome_bind
  intro r es₃ h₃
  cases r with
  | ok u => exact heeds_pure h₃
  | error e =>
    apply heeds_bind
    apply heeds_ask (⟨_, h₃, (by decide)⟩)
    intro answer
    apply heeds_throw
    have hc : (Role.client : Role) ≠ .target := by decide
    rw [Opens, custody_append]
    exact h₃.release (by decide) hc

theorem usable_respond_relay (hk : (custody es).Keeps [.target, .client]) (bound : Address) :
    Heeds Usable es (do respond bound; onClient Connection.relay) fun _ es' =>
      (custody es').Keeps [.target, .client] := by
  apply usable_idle hk
  exact only_bind (idle_respond (by decide) bound) fun _ => idle_relay (by decide) (by decide)

theorem usable_serveConnect (hk : (custody es).Keeps [.client]) (config : Configuration)
    (target : Address) : Heeds Usable es (serveConnect config target) fun _ es' =>
      (custody es').Keeps [.client] := by
  apply (usable_dial hk config target).outcome_bind
  intro r es₁ h₁
  cases r with
  | error e => exact usable_idle h₁ (idle_refuse (by decide) _ e)
  | ok u =>
    apply usable_closing (fun _ => [.target, .client]) (by decide)
    apply (usable_idle h₁ (idle_targetLocal (by decide))).outcome_bind
    intro r es₂ h₂
    cases r with
    | error e => exact (usable_idle h₂ (idle_refuse (by decide) _ e)).mono fun _ _ h => ⟨by simp, h⟩
    | ok bound => exact (usable_respond_relay h₂ _).mono fun _ _ h => ⟨by simp, h⟩

def awaited : Except Error (Option SocketAddress) → List Role
  | .ok (some _) => [.target, .listener, .client]
  | _ => [.listener, .client]

theorem usable_awaitPeer (hk : (custody es).Keeps [.listener, .client]) (config : Configuration) :
    Heeds Usable es (awaitPeer config) fun r es' => (custody es').Keeps (awaited r) := by
  have hrefuse : ∀ e es', (custody es').Keeps [.listener, .client] →
      Heeds Usable es' (do refuse .generalFailure e; return none)
        fun r es' => (custody es').Keeps (awaited r) := by
    intro e es' h
    apply Heeds.bind _ (usable_idle h (idle_refuse (by decide) _ e))
    · exact fun _ _ h => h
    · exact fun _ _ h => heeds_pure h
  apply (usable_idle hk (idle_listenerLocal (by decide))).outcome_bind
  intro r es₁ h₁
  cases r with
  | error e => exact hrefuse e es₁ h₁
  | ok bound =>
    apply Heeds.bind _ (usable_idle h₁ (idle_respond (by decide) _))
    · exact fun _ _ h => h
    intro u es₂ h₂
    apply (usable_accept h₂ (by decide) (by decide)).outcome_bind
    intro r es₃ h₃
    cases r with
    | error e => exact hrefuse e es₃ h₃
    | ok peer => exact heeds_pure h₃

theorem usable_serveBind (hk : (custody es).Keeps [.client]) (config : Configuration)
    (requested : Address) : Heeds Usable es (serveBind config requested) fun _ es' =>
      (custody es').Keeps [.client] := by
  have hlisten : Heeds Usable es (do listen (← resolve requested) : Action interface Unit)
      (Opens .listener [.client]) := by
    apply Heeds.bind _ (usable_idle hk (idle_resolve requested))
    · exact fun _ _ h => h
    · exact fun a _ h => usable_listen h (by decide) a
  apply hlisten.outcome_bind
  intro r es₁ h₁
  cases r with
  | error e => exact usable_idle h₁ (idle_refuse (by decide) _ e)
  | ok u =>
    apply Heeds.bind _ (usable_closing awaited (by decide)
      ((usable_awaitPeer h₁ config).mono fun r _ h => ⟨?_, h⟩))
    · exact fun _ _ h => h
    · intro peer es₂ h₂
      cases peer with
      | none => exact heeds_pure h₂
      | some peer =>
        have hk₂ : (custody es₂).Keeps [.target, .client] := h₂
        apply usable_closing (fun _ => [.target, .client]) (by decide)
        apply Heeds.bind _ (usable_idle hk₂ (idle_keepAlive (by decide) config.keepalive))
        · exact fun _ _ h => ⟨by simp, h⟩
        · intro u es₃ h₃
          exact (usable_respond_relay h₃ _).mono fun _ _ h => ⟨by simp, h⟩
    · rcases r with e | _ | peer <;> simp [awaited]

theorem usable_serveCommand (hk : (custody es).Keeps [.client]) (config : Configuration)
    (request : CommandRequest) : Heeds Usable es (serveCommand config request) fun _ es' =>
      (custody es').Keeps [.client] := by
  unfold serveCommand
  split
  case h_1 => exact usable_serveConnect hk config _
  case h_2 => exact usable_serveBind hk config _
  case h_3 => exact usable_idle hk (idle_refuse (by decide) _ _)

theorem idle_readRequest (config : Configuration) :
    (readRequest config).Only (Idle [.client]) := by
  have hc : Role.client ∈ [Role.client] := by decide
  have hnegotiate := (Connection.negotiate_meets config.authenticator.method).only
  have hauthenticate := (Connection.authenticate_meets config.authenticator).only
  refine only_bind (only_onClient (hnegotiate.mono fun _ => idle_of_makes hc)) fun _ => ?_
  refine only_bind (only_onClient (hauthenticate.mono fun _ => idle_of_makes hc)) fun _ => ?_
  have hread := only_onClient (Connection.readCommand_meets.only.mono fun _ => idle_of_makes hc)
  refine only_bind (only_outcome hread) fun r => ?_
  cases r with
  | ok request => exact only_pure request
  | error e =>
    dsimp only
    split
    case h_1 status _ => exact only_bind (idle_refuse hc status e) fun _ => only_throw e
    case h_2 => exact only_throw e

/-- However a session ends, only the socket of the client is then left to be closed. -/
theorem usable_session (config : Configuration) :
    Heeds Usable [] (session config) fun _ es' =>
      ∃ es, (custody es).Keeps [.client] ∧ es' = es ++ [⟨.close .client, ()⟩] := by
  apply heeds_closing
  have hk : (custody []).Keeps [.client] := keeps_start
  have hpeer : clientPeer.Only (Idle [.client]) :=
    only_attempt ⟨by simp [Request.uses], fun _ _ => rfl⟩
  have hlocal : clientLocal.Only (Idle [.client]) :=
    only_attempt ⟨by simp [Request.uses], fun _ _ => rfl⟩
  have hhandle : ∀ es, (custody es).Keeps [.client] → Heeds Usable es (handle config)
      fun _ es' => (custody es').Keeps [.client] := by
    intro es h
    rw [handle_eq]
    apply Heeds.bind _ (usable_idle h (idle_readRequest config))
    · exact fun _ _ h => h
    · exact fun request _ h => usable_serveCommand h config request
  have hbody : Heeds Usable [] (do
      let _ ← clientPeer
      let _ ← clientLocal
      handle config) fun _ es' => (custody es').Keeps [.client] := by
    apply Heeds.bind _ (usable_idle hk hpeer)
    · exact fun _ _ h => h
    intro _ es₁ h₁
    apply Heeds.bind _ (usable_idle h₁ hlocal)
    · exact fun _ _ h => h
    intro _ es₂ h₂
    exact hhandle es₂ h₂
  apply hbody.mono
  intro r es' h
  exact ⟨⟨_, h, (by decide)⟩, es', h, rfl⟩

end

theorem Custody.isPrefix_note (c : Custody) (e : Exchange interface) :
    c.opened <+: (c.note e).opened := by
  unfold Custody.note
  split
  case h_1 => exact List.prefix_append ..
  case h_2 => exact List.prefix_append ..
  case h_3 => exact List.prefix_append ..
  all_goals exact List.prefix_refl _

theorem isPrefix_opened (es rest : List (Exchange interface)) :
    (custody es).opened <+: (custody (es ++ rest)).opened := by
  rw [custody_append]
  generalize custody es = c
  induction rest generalizing c with
  | nil => exact List.prefix_refl _
  | cons e rest ih => exact (c.isPrefix_note e).trans (ih (c.note e))

/-- All sockets of a session are accounted for: those that a request is about are open, and at the
end each has been closed once, the client's last and after that of a relay's target. -/
structure Accounted (config : Configuration) : Prop where
  usable : ∀ es q role, (session config).Asks es q → role ∈ q.uses → (custody es).Open role
  closed : ∀ es r, (session config).Ends es r →
    (custody es).closings.Perm (List.range (custody es).opened.length) ∧
      ∃ others, (custody es).closings = others ++ [0]
  relayed : ∀ before answer after r,
    (session config).Ends (before ++ ⟨.client .relay, answer⟩ :: after) r →
      ∃ target others, (custody before).held .target = some target ∧
        target ∉ (custody before).closings ∧ target ∈ others ∧
          (custody (before ++ ⟨.client .relay, answer⟩ :: after)).closings = others ++ [0]

/-- No socket is leaked. -/
theorem session_accounted (config : Configuration) : Accounted config := by
  obtain ⟨husable, hended⟩ := usable_session config
  have hclosed : ∀ es r, (session config).Ends es r →
      (custody es).closings.Perm (List.range (custody es).opened.length) ∧
        ∃ others, (custody es).closings = others ++ [0] := by
    intro es r h
    obtain ⟨es', hk, rfl⟩ := hended es r h
    rw [custody_append]
    obtain ⟨hlast, hperm⟩ := hk.closings_release
    exact ⟨hperm, _, hlast⟩
  refine ⟨?_, hclosed, ?_⟩
  · intro es q role h hr
    obtain ⟨roles, hk, hq⟩ := husable es q h
    exact hk.isOpen (hq role hr)
  · intro before answer after r h
    have hasks : (session config).Asks before (.client .relay) := h.asks
    obtain ⟨roles, hk, hq⟩ := husable before _ hasks
    obtain ⟨target, ht, hlt, hopen⟩ := hk.isOpen (hq .target (by decide))
    obtain ⟨hperm, others, ho⟩ := hclosed _ r h
    have hle := (isPrefix_opened before (⟨.client .relay, answer⟩ :: after)).length_le
    have hm := hperm.mem_iff.2 (List.mem_range.2 (Nat.lt_of_lt_of_le hlt hle))
    rw [ho, List.mem_append, List.mem_singleton] at hm
    exact ⟨target, others, ht, hopen, hm.resolve_right (hk.target_ne ht), ho⟩

example : (custody [⟨.listen (.v4 ⟨127, 0, 0, 1⟩ 80), .ok ()⟩,
    ⟨.accept, .ok (.v4 ⟨10, 0, 0, 1⟩ 4242)⟩, ⟨.close .listener, ()⟩, ⟨.close .target, ()⟩,
    ⟨.close .client, ()⟩]).closings = [1, 2, 0] := rfl

end Session

end SocksProxy
