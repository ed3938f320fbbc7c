import SocksProxy.SessionTask

/-!
# Listeners and sessions

A session uses the listeners that it opens itself, whatever the session of a client does and however
it ends. All the others have the same arrivals after it as before.
-/

namespace SocksProxy

namespace Program

variable {I : Interface} {α σ : Type}

theorem run_induction {provide : Provider I σ} {motive : σ → Prop}
    (step : ∀ q s, motive s → motive (provide q s).2) (p : Program I α) (s : σ) (h : motive s) :
    motive (p.run provide s).2 := by
  induction p generalizing s with
  | done a => exact h
  | ask q next ih =>
    have hs := step q s h
    rw [run]
    split
    · next heq => rwa [heq] at hs
    · next answer s' heq =>
      rw [heq] at hs
      exact ih answer s' hs

end Program

namespace Relay

variable {σ : Type} {client target : Endpoint σ}

theorem settle_induction {motive : σ → Prop}
    (outward : ∀ pipe s, motive s → motive (Pipe.await client target pipe s).2)
    (inward : ∀ pipe s, motive s → motive (Pipe.await target client pipe s).2) (events : Nat)
    (relay : Relay) (s : σ) (h : motive s) : motive (settle client target events relay s).2 := by
  induction events generalizing relay s with
  | zero => exact h
  | succ events ih =>
    rw [settle]
    split
    · exact h
    · have ho := outward relay.outward s h
      split
      · next heq =>
        rw [heq] at ho
        exact ih _ _ ho
      · next s' heq =>
        rw [heq] at ho
        have hi := inward relay.inward s' ho
        split
        · next heq =>
          rw [heq] at hi
          exact ih _ _ hi
        · next heq => rwa [heq] at hi

end Relay

namespace Network

variable {network : Network} {listener : Nat} {l : Listener}

theorem listeners_receive (index limit : Nat) (network : Network) :
    (network.receive index limit).2.listeners = network.listeners := by
  unfold receive
  split <;> rfl

theorem listeners_send (index : Nat) (octets : Bytes) (network : Network) :
    (network.send index octets).2.listeners = network.listeners := by
  unfold send
  split
  · rfl
  · split <;> rfl

theorem listeners_addSocket (side : Side) (peer self : Reported) (network : Network) :
    (network.addSocket side peer self).2.listeners = network.listeners := by
  cases side <;> rfl

theorem listeners_connect (a : SocketAddress) (network : Network) :
    (network.connect a).2.listeners = network.listeners := by
  unfold connect
  dsimp only
  split
  · rfl
  · rfl
  · exact listeners_addSocket ..

theorem listeners_lookup (name : Text) (network : Network) :
    (network.lookup name).2.listeners = network.listeners := by
  unfold lookup
  dsimp only
  split <;> rfl

theorem listeners_setOption (index : Nat) (option : SocketOption) (network : Network) :
    (network.setOption index option).2.listeners = network.listeners := by
  unfold setOption
  split
  · rfl
  · unfold setNamedOption
    dsimp only
    split <;> rfl

theorem listeners_await (reader writer : Nat) (pipe : Pipe) (network : Network) :
    (Pipe.await (endpoint reader) (endpoint writer) pipe network).2.listeners =
      network.listeners := by
  unfold Pipe.await
  split
  · exact listeners_receive ..
  · exact listeners_send ..
  · rfl
  · rfl
  · rfl

theorem listeners_settleRelay (client target : Nat) (relay : Relay) (network : Network) :
    (network.settleRelay client target relay).2.listeners = network.listeners :=
  Relay.settle_induction (motive := fun after : Network => after.listeners = network.listeners)
    (fun _ _ h => (listeners_await ..).trans h) (fun _ _ h => (listeners_await ..).trans h) _ _ _
    rfl

/-- Whether there is something to accept, and from whom, depends on the listener alone. -/
theorem peer_accept_congr {other : Network}
    (h : other.listeners[listener]? = network.listeners[listener]?) :
    (other.accept listener).1.map (·.map Prod.fst) =
      (network.accept listener).1.map (·.map Prod.fst) := by
  unfold accept
  rw [h]
  split
  · rfl
  · split
    · rfl
    · dsimp only
      split <;> rfl

theorem listener_accept_of_ne {index : Nat} (hne : index ≠ listener) (network : Network) :
    (network.accept index).2.listeners[listener]? = network.listeners[listener]? := by
  unfold accept
  split
  · rfl
  · split
    · rfl
    · dsimp only
      split
      · exact List.getElem?_set_ne hne
      · rw [listeners_addSocket]
        exact List.getElem?_set_ne hne

end Network

/-- A place of a session that has nothing to do with a listener of its network. -/
structure Place.Apart (listener : Nat) (l : Listener) (place : Place) : Prop where
  kept : place.network.listeners[listener]? = some l
  own : place.listener ≠ some listener

variable {listener : Nat} {l : Listener} {place : Place}

theorem Place.Apart.of_eq {after : Place} (h : place.Apart listener l)
    (hn : after.network.listeners = place.network.listeners)
    (ho : after.listener = place.listener) : after.Apart listener l :=
  ⟨hn ▸ h.kept, ho ▸ h.own⟩

theorem Place.Apart.listen (h : place.Apart listener l) (a : SocketAddress) :
    (place.provide (.listen a)).2.Apart listener l := by
  have hlt : listener < place.network.listeners.length := (List.getElem?_eq_some_iff.1 h.kept).1
  simp only [Place.provide, Place.opened, Network.listen]
  split
  · next e heq =>
    split at heq
    · exact h.of_eq rfl rfl
    · exact h.of_eq rfl rfl
    · cases heq
  · next index heq =>
    split at heq
    · cases heq
    · cases heq
    · cases heq
      refine ⟨?_, fun he => Nat.ne_of_gt hlt (Option.some.inj he)⟩
      exact (List.getElem?_append_left hlt).trans h.kept

theorem Place.Apart.accept (h : place.Apart listener l) :
    (place.provide .accept).2.Apart listener l := by
  simp only [Place.provide]
  split
  · exact h
  · next own ho =>
    have hne : own ≠ listener := fun he => h.own (ho.trans (congrArg some he))
    have hkept := Network.listener_accept_of_ne hne place.network
    split <;> next heq => rw [heq] at hkept; exact ⟨hkept.trans h.kept, h.own⟩

theorem Place.Apart.closeRole (h : place.Apart listener l) (role : Session.Role) :
    (place.closeRole role).Apart listener l := by
  cases role with
  | client => exact h.of_eq rfl rfl
  | target =>
    simp only [Place.closeRole]
    split <;> exact h.of_eq rfl rfl
  | listener =>
    simp only [Place.closeRole]
    split
    · exact h
    · next own ho =>
      have hne : own ≠ listener := fun he => h.own (ho.trans (congrArg some he))
      refine ⟨?_, nofun⟩
      exact (List.getElem?_modify_ne _ _ hne).trans h.kept

theorem Place.Apart.provide (h : place.Apart listener l) (q : Session.Request) :
    (place.provide q).2.Apart listener l := by
  cases q with
  | client request =>
    cases request with
    | stream request =>
      cases request with
      | receive limit => exact h.of_eq (Network.listeners_receive ..) rfl
      | send octets => exact h.of_eq (Network.listeners_send ..) rfl
    | started operation => exact h
    | entered stage => exact h
    | relay =>
      simp only [Place.provide, Place.provideClient]
      split
      · exact h
      · exact h.of_eq (Network.listeners_settleRelay ..) rfl
  | clientPeer => exact h
  | clientLocal => exact h
  | lookup name => exact h.of_eq (Network.listeners_lookup ..) rfl
  | connect a =>
    simp only [Place.provide, Place.opened]
    split <;> exact h.of_eq (Network.listeners_connect ..) rfl
  | listen a => exact h.listen a
  | accept => exact h.accept
  | targetLocal =>
    simp only [Place.provide]
    split <;> exact h
  | listenerLocal =>
    simp only [Place.provide]
    split <;> exact h
  | setOption option =>
    simp only [Place.provide]
    split
    · exact h
    · exact h.of_eq (Network.listeners_setOption ..) rfl
  | close role => exact h.closeRole role

theorem SessionTask.run_apart {session : SessionTask} {network : Network}
    (hl : network.listeners[listener]? = some l) (ho : session.listener ≠ some listener) :
    (session.run network).2.listeners[listener]? = some l ∧
      (session.run network).1.listener ≠ some listener := by
  have h := Program.run_induction (motive := Place.Apart listener l)
    (fun q _ h => h.provide q) session.program
    ⟨network, session.client, session.target, session.listener, session.relay⟩ ⟨hl, ho⟩
  exact ⟨h.kept, h.own⟩

end SocksProxy
