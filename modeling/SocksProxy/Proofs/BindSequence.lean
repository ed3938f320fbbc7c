import Mathlib.Data.List.Basic
import SocksProxy.Proofs.OwedReplies
import SocksProxy.Proofs.SocketCustody

/-!
# The sequence of a bind

A client that has asked for a listener is told of its address, and then of the peer that has been
accepted there, and each reply is sent whole before what comes next. One connection is accepted at
most, and it is the one that is relayed. A failure is told in place of the next reply, and nothing
is sent after it.
-/

namespace SocksProxy

namespace Session

open SocksProxy.Action Connection

def Announces (bound : Address) (reply : Bytes) : Prop :=
  ∃ record, bound.record = .ok record ∧ reply = Reply.commandHeader .succeeded ++ record

def AnnouncesListener (config : Configuration) (es : List (Exchange interface)) (reply : Bytes) :
    Prop :=
  ∃ a bound, ⟨.listen a, .ok ()⟩ ∈ es ∧ ⟨.listenerLocal, .ok bound⟩ ∈ es ∧
    Announces (config.boundAddress bound) reply

def AnnouncesPeer (es : List (Exchange interface)) (peer : SocketAddress) (reply : Bytes) : Prop :=
  ⟨.accept, .ok peer⟩ ∈ es ∧ Announces (.ofSocketAddress peer) reply

/-- The socket of the target is that of an accepted peer. -/
def Partner (es : List (Exchange interface)) (peer : SocketAddress) : Prop :=
  ∃ i, (custody es).held .target = some i ∧ (custody es).opened[i]? = some (.accepted peer)

/-- The reply that is being sent, of which `octets` is missing. -/
inductive Sending (config : Configuration) (es : List (Exchange interface)) (octets : Bytes) :
    Prop where
  | listener (h : AnnouncesListener config es (sent es ++ octets)) (h0 : accepts es = 0)
  | peer {first second part : Bytes} {peer : SocketAddress}
      (h : AnnouncesListener config es first) (hp : AnnouncesPeer es peer second)
      (hc : ⟨.close .listener, ()⟩ ∈ es) (hs : sent es = first ++ part)
      (ho : part ++ octets = second)
  | failure {said part : Bytes} (h : said = [] ∨ AnnouncesListener config es said)
      (hr : starts .refuse ∈ es) (hs : sent es = said ++ part)
      (ho : part ++ octets = failureOctets .generalFailure)

/-- A request has its turn after the exchanges since the request of the client. -/
structure InTurn (config : Configuration) (es : List (Exchange interface)) (q : Request) :
    Prop where
  once : accepts es ≤ 1
  sending : ∀ octets, q = .client (.stream (.send octets)) → octets ≠ [] ∧ Sending config es octets
  accepting : q = .accept → accepts es = 0 ∧ AnnouncesListener config es (sent es)
  relaying : q = .client .relay → ∃ first second peer, AnnouncesListener config es first ∧
    AnnouncesPeer es peer second ∧ sent es = first ++ second ∧ Partner es peer
  refused : ∀ before after, es = before ++ starts .refuse :: after → q ≠ .accept ∧
    q ≠ .client .relay ∧ (∀ operation, q ≠ .client (.started operation)) ∧
      ∀ octets, q = .client (.stream (.send octets)) →
        sent after ++ octets = failureOctets .generalFailure

section

variable {config : Configuration} {es rest : List (Exchange interface)} {reply : Bytes}
  {peer : SocketAddress}

theorem AnnouncesListener.append (h : AnnouncesListener config es reply)
    (rest : List (Exchange interface)) : AnnouncesListener config (es ++ rest) reply := by
  obtain ⟨a, bound, hl, hb, hr⟩ := h
  exact ⟨a, bound, List.mem_append_left _ hl, List.mem_append_left _ hb, hr⟩

theorem Partner.append (h : Partner es peer)
    (hc : (custody (es ++ rest)).held .target = (custody es).held .target) :
    Partner (es ++ rest) peer := by
  obtain ⟨i, hi, ho⟩ := h
  obtain ⟨more, hm⟩ := isPrefix_opened es rest
  refine ⟨i, hc.trans hi, ?_⟩
  rw [← hm, List.getElem?_append_left (List.getElem?_eq_some_iff.1 ho).1]
  exact ho

@[simp] theorem accepts_ofConnection (inner : List (Exchange Connection.interface)) :
    accepts (inner.map ofConnection) = 0 := by
  apply List.countP_eq_zero.2
  intro e he
  obtain ⟨d, -, rfl⟩ := List.mem_map.1 he
  simp [ofConnection, Exchange.embed]

theorem custody_append_ofConnection (es : List (Exchange interface))
    (inner : List (Exchange Connection.interface)) :
    custody (es ++ inner.map ofConnection) = custody es := by
  have hidle : ∀ q, Idle [.client, .target] (.client q) := by
    intro q
    refine ⟨?_, fun _ _ => rfl⟩
    cases q <;> simp [Request.uses]
  apply custody_append_of_idle
  intro e he
  obtain ⟨d, -, rfl⟩ := List.mem_map.1 he
  exact hidle d.request

/-- What has been sent and accepted since the request, before any failure is told. -/
structure Course (es : List (Exchange interface)) (said : Bytes) (accepted : Nat) : Prop where
  sent_eq : sent es = said
  accepts_eq : accepts es = accepted
  unrefused : starts .refuse ∉ es

variable {said octets : Bytes} {count more : Nat} {q : Request}

theorem Course.accepts_le (h : Course es said count) (hc : count ≤ 1) : accepts es ≤ 1 := by
  rw [h.accepts_eq]
  exact hc

theorem Course.ne_refused (h : Course es said count) (before after : List (Exchange interface)) :
    es ≠ before ++ starts .refuse :: after := by
  rintro rfl
  exact h.unrefused (by simp)

theorem Course.append (h : Course es said count) (hs : sent rest = octets)
    (ha : accepts rest = more) (hr : starts .refuse ∉ rest) :
    Course (es ++ rest) (said ++ octets) (count + more) := by
  refine ⟨?_, ?_, ?_⟩
  · rw [sent_append, h.sent_eq, hs]
  · rw [accepts_append, h.accepts_eq, ha]
  · simp only [List.mem_append, not_or]
    exact ⟨h.unrefused, hr⟩

theorem Course.concat (h : Course es said count) {e : Exchange interface}
    (he : ∀ r, e.request ≠ .client r) (ha : accepts [e] = more) :
    Course (es ++ [e]) said (count + more) := by
  have hs : sent [e] = [] := by
    apply sent_eq_nil
    intro d hd s
    rw [List.mem_singleton.1 hd]
    exact he _
  have hr : starts .refuse ∉ [e] := by
    intro hm
    have hq := congrArg Exchange.request (List.mem_singleton.1 hm)
    exact he _ hq.symm
  simpa using h.append hs ha hr

theorem Course.announced (h : Course es said count) {operation : Operation}
    (ho : operation ≠ .refuse) (stream : List (Exchange OctetStream.interface)) :
    Course (es ++ (announced operation stream).map ofConnection) (said ++ sent stream) count := by
  apply h.append (by simp) (accepts_ofConnection _)
  intro hm
  obtain ⟨d, hd, hq⟩ := List.mem_map.1 hm
  rcases mem_announced hd with rfl | ⟨s, hs⟩
  · cases hq
    exact ho rfl
  · have hr : d.request = .started .refuse := Request.client.inj (congrArg Exchange.request hq)
    cases hs.symm.trans hr

theorem Course.turn (h : Course es said count) (hc : count ≤ 1)
    (hs : ∀ octets, q ≠ .client (.stream (.send octets))) (ha : q ≠ .accept)
    (hr : q ≠ .client .relay) : InTurn config es q where
  once := h.accepts_le hc
  sending octets hq := absurd hq (hs octets)
  accepting hq := absurd hq ha
  relaying hq := absurd hq hr
  refused before after he := absurd he (h.ne_refused before after)

/-- Sockets are closed, and stages entered, also after a failure has been told. -/
theorem turn_of_once (h : accepts es ≤ 1)
    (hq : (∃ role, q = .close role) ∨ ∃ stage, q = .client (.entered stage)) :
    InTurn config es q := by
  rcases hq with ⟨role, rfl⟩ | ⟨stage, rfl⟩
  · exact ⟨h, nofun, nofun, nofun, fun _ _ _ => ⟨nofun, nofun, nofun, nofun⟩⟩
  · exact ⟨h, nofun, nofun, nofun, fun _ _ _ => ⟨nofun, nofun, nofun, nofun⟩⟩

theorem turn_closing {α : Type} {role : Role} {x : Action interface α}
    {P : Except Error α → List (Exchange interface) → Prop}
    (h : Heeds (InTurn config) es x fun r es' => accepts es' ≤ 1 ∧
      P r (es' ++ [⟨.close role, ()⟩])) :
    Heeds (InTurn config) es (closing role x) fun r es' => accepts es' ≤ 1 ∧ P r es' := by
  apply heeds_closing
  apply h.mono
  rintro r es' ⟨ha, hp⟩
  have h0 : accepts [(⟨.close role, ()⟩ : Exchange interface)] = 0 := rfl
  refine ⟨turn_of_once ha (.inl ⟨role, rfl⟩), ?_, hp⟩
  rwa [accepts_append, h0]

/-- A look-up, or an option of the target. -/
def Aside (q : Request) : Prop := (∃ name, q = .lookup name) ∨ ∃ option, q = .setOption option

theorem Aside.idle (h : Aside q) : Idle [.target] q := by
  rcases h with ⟨name, rfl⟩ | ⟨option, rfl⟩
  · exact ⟨nofun, fun _ _ => rfl⟩
  · exact ⟨by simp [Request.uses], fun _ _ => rfl⟩

theorem Course.aside (h : Course es said count) (hr : ∀ e ∈ rest, Aside e.request) :
    Course (es ++ rest) said count := by
  have hs : sent rest = [] := by
    apply sent_eq_nil
    intro e he s hq
    rcases hr e he with ⟨name, hn⟩ | ⟨option, hn⟩ <;> cases hq.symm.trans hn
  have ha : accepts rest = 0 := by
    apply List.countP_eq_zero.2
    intro e he
    rcases hr e he with ⟨name, hn⟩ | ⟨option, hn⟩ <;> simp [hn]
  have hu : starts .refuse ∉ rest := by
    intro hm
    rcases hr _ hm with ⟨name, hn⟩ | ⟨option, hn⟩ <;> cases hn
  simpa using h.append hs ha hu

theorem turn_aside {α : Type} {x : Action interface α} (h : Course es said count)
    (hc : count ≤ 1) (hx : x.Only Aside) :
    Heeds (InTurn config) es x fun _ es' => ∃ rest, es' = es ++ rest ∧
      Course es' said count ∧ custody es' = custody es := by
  apply heeds_of_only hx
  · intro rest q hr hq
    have hcourse := h.aside hr
    rcases hq with ⟨name, rfl⟩ | ⟨option, rfl⟩
    · exact hcourse.turn hc nofun nofun nofun
    · exact hcourse.turn hc nofun nofun nofun
  · intro rest r hr
    exact ⟨rest, rfl, h.aside hr, custody_append_of_idle fun e he => (hr e he).idle⟩

theorem Course.once (h : Course es said count) (hc : count ≤ 1)
    (inner : List (Exchange Connection.interface)) :
    accepts (es ++ inner.map ofConnection) ≤ 1 := by
  rw [accepts_append, accepts_ofConnection, h.accepts_eq]
  exact hc

theorem turn_refuse (h : Course es said count) (hc : count ≤ 1)
    (hs : said = [] ∨ AnnouncesListener config es said) (e : Error) :
    Heeds (InTurn config) es (refuse .generalFailure e) fun _ es' => accepts es' ≤ 1 := by
  have hrefused : ∀ {stream before after},
      es ++ (announced .refuse stream).map ofConnection = before ++ starts .refuse :: after →
        sent after = sent stream := by
    intro stream before after he
    have ht : starts .refuse ∉ (stream.map ofStream).map ofConnection := by
      intro hm
      obtain ⟨d, hd, hq⟩ := List.mem_map.1 hm
      obtain ⟨s, -, rfl⟩ := List.mem_map.1 hd
      cases congrArg Exchange.request hq
    obtain ⟨-, -, rfl⟩ := (List.append_cons_inj_of_notMem h.unrefused ht).1 he
    rw [sent_ofConnection, sent_ofStream]
  apply heeds_onClient (refuse_replying .generalFailure)
  · intro inner q hq
    cases hq with
    | started =>
      rw [List.map_nil, List.append_nil]
      exact h.turn hc nofun nofun nofun
    | @send stream octets hn hsent =>
      refine ⟨h.once hc _, ?_, nofun, nofun, fun before after he => ⟨nofun, nofun, nofun, ?_⟩⟩
      · rintro octets' ho
        cases ho
        refine ⟨hn, .failure (hs.imp_right fun hl => hl.append _) ?_ ?_ hsent⟩
        · exact List.mem_append_right _ (List.mem_cons_self ..)
        · rw [sent_append, h.sent_eq, sent_ofConnection, sent_announced]
      · rintro octets' ho
        cases ho
        rw [hrefused he, hsent]
    | entered hsent =>
      exact turn_of_once (h.once hc _) (.inr ⟨_, rfl⟩)
  · exact fun inner r _ => h.once hc inner

theorem turn_respond {bound : Address} (h : Course es said count) (hc : count ≤ 1)
    (hm : ∀ rest part octets, accepts (es ++ rest) = count → sent (es ++ rest) = said ++ part →
      Announces bound (part ++ octets) → Sending config (es ++ rest) octets) :
    Heeds (InTurn config) es (respond bound) fun r es' => accepts es' ≤ 1 ∧
      ∀ u, r = .ok u → ∃ reply rest, Announces bound reply ∧ es' = es ++ rest ∧
        Course es' (said ++ reply) count ∧ custody es' = custody es := by
  have hrespond : Operation.respond ≠ .refuse := by decide
  cases hr : bound.record with
  | error e =>
    apply heeds_onClient (respond_failing hr)
    · rintro inner q ⟨rfl, rfl⟩
      rw [List.map_nil, List.append_nil]
      exact h.turn hc nofun nofun nofun
    · rintro inner r ⟨rfl, rfl⟩
      exact ⟨(h.announced hrespond []).accepts_le hc, nofun⟩
  | ok record =>
    apply heeds_onClient (respond_replying hr)
    · intro inner q hq
      cases hq with
      | started =>
        rw [List.map_nil, List.append_nil]
        exact h.turn hc nofun nofun nofun
      | @send stream octets hn hsent =>
        have hcourse := h.announced hrespond stream
        refine ⟨hcourse.accepts_le hc, ?_, nofun, nofun, fun before after he => ?_⟩
        · rintro octets' ho
          cases ho
          exact ⟨hn, hm _ _ _ hcourse.accepts_eq hcourse.sent_eq ⟨record, hr, hsent⟩⟩
        · exact absurd he (hcourse.ne_refused before after)
      | @entered stream hsent => exact (h.announced hrespond stream).turn hc nofun nofun nofun
    · intro inner r hended
      cases hended with
      | @broken stream rest e hn hsent =>
        exact ⟨(h.announced hrespond stream).accepts_le hc, nofun⟩
      | @whole stream u hsent =>
        have hs : sent [enters .active] = [] := rfl
        have ha : accepts [enters .active] = 0 := rfl
        have hcourse := (h.announced hrespond stream).append hs ha (by simp [starts, enters])
        have hes : (announced .respond stream).map ofConnection ++ [enters .active] =
            (announced .respond stream ++
              [(⟨.entered .active, ()⟩ : Exchange Connection.interface)]).map ofConnection := by
          rw [List.map_append]
          rfl
        rw [hsent, List.append_nil, Nat.add_zero, List.append_assoc, hes] at hcourse
        refine ⟨hcourse.accepts_le hc, fun _ _ => ?_⟩
        exact ⟨_, _, ⟨record, hr, rfl⟩, rfl, hcourse, custody_append_ofConnection es _⟩

/-- The listener has been announced, and one peer has been accepted on it. -/
structure Joined (config : Configuration) (es : List (Exchange interface)) (first : Bytes)
    (peer : SocketAddress) : Prop where
  course : Course es first 1
  announced : AnnouncesListener config es first
  accepted : ⟨.accept, .ok peer⟩ ∈ es
  partner : Partner es peer

theorem Joined.append {first : Bytes} (h : Joined config es first peer)
    (hcourse : Course (es ++ rest) first 1)
    (hc : (custody (es ++ rest)).held .target = (custody es).held .target) :
    Joined config (es ++ rest) first peer :=
  ⟨hcourse, h.announced.append rest, List.mem_append_left _ h.accepted, h.partner.append hc⟩

theorem Partner.of_accept (es : List (Exchange interface)) (peer : SocketAddress) :
    Partner (es ++ [⟨.accept, .ok peer⟩]) peer := by
  rw [Partner, custody_append]
  exact ⟨(custody es).opened.length, rfl, by simp [Custody.note, Custody.take]⟩

theorem turn_accept {first : Bytes} (h : Course es first 0)
    (hl : AnnouncesListener config es first) :
    Heeds (InTurn config) es accept fun r es' =>
      Course es' first 1 ∧ AnnouncesListener config es' first ∧
        ∀ peer, r = .ok peer → Joined config es' first peer := by
  have hturn : InTurn config es .accept := by
    refine ⟨by simp [h.accepts_eq], nofun, fun _ => ⟨h.accepts_eq, ?_⟩, nofun, ?_⟩
    · rwa [h.sent_eq]
    · exact fun before after he => absurd he (h.ne_refused before after)
  apply heeds_attempt hturn
  intro answer
  have hcourse : Course (es ++ [⟨.accept, answer⟩]) first 1 := h.concat (by simp) rfl
  refine ⟨hcourse, hl.append _, fun peer hp => ?_⟩
  cases answer with
  | error e => cases hp
  | ok a =>
    cases hp
    exact ⟨hcourse, hl.append _, by simp, .of_accept es _⟩

theorem turn_refuse_awaited (h : Course es said count) (hc : count ≤ 1)
    (hs : said = [] ∨ AnnouncesListener config es said) (e : Error) :
    Heeds (InTurn config) es (do refuse .generalFailure e; return none) fun r es' =>
      accepts es' ≤ 1 ∧ ∀ peer : SocketAddress, r = .ok (some peer) →
        ∃ first, Joined config es' first peer := by
  apply Heeds.bind _ (turn_refuse h hc hs e)
  · exact fun _ _ ha => ⟨ha, nofun⟩
  · exact fun _ _ ha => heeds_pure ⟨ha, nofun⟩

theorem turn_listenerLocal {a : SocketAddress} (h : Course es [] 0)
    (ha : ⟨.listen a, .ok ()⟩ ∈ es) :
    Heeds (InTurn config) es listenerLocal fun r es' => Course es' [] 0 ∧
      ⟨.listen a, .ok ()⟩ ∈ es' ∧ ∀ bound, r = .ok bound → ⟨.listenerLocal, .ok bound⟩ ∈ es' := by
  have hturn : InTurn config es .listenerLocal := h.turn (by decide) nofun nofun nofun
  apply heeds_attempt hturn
  intro answer
  refine ⟨h.concat (by simp) rfl, List.mem_append_left _ ha, fun bound hb => ?_⟩
  cases answer with
  | error e => cases hb
  | ok b =>
    cases hb
    simp

theorem turn_awaitPeer (h : Course es [] 0) (hl : ∃ a, ⟨.listen a, .ok ()⟩ ∈ es) :
    Heeds (InTurn config) es (awaitPeer config) fun r es' => accepts es' ≤ 1 ∧
      ∀ peer, r = .ok (some peer) → ∃ first, Joined config es' first peer := by
  obtain ⟨a, ha⟩ := hl
  apply (turn_listenerLocal h ha).outcome_bind
  rintro r es₁ ⟨hcourse₁, hl₁, hb₁⟩
  cases r with
  | error e => exact turn_refuse_awaited hcourse₁ (by decide) (.inl rfl) e
  | ok bound =>
    have hannounces : ∀ rest reply, Announces (config.boundAddress bound) reply →
        AnnouncesListener config (es₁ ++ rest) reply := by
      intro rest reply hr
      exact ⟨a, bound, List.mem_append_left _ hl₁, List.mem_append_left _ (hb₁ bound rfl), hr⟩
    have hsending : ∀ rest part octets, accepts (es₁ ++ rest) = 0 →
        sent (es₁ ++ rest) = [] ++ part →
          Announces (config.boundAddress bound) (part ++ octets) →
            Sending config (es₁ ++ rest) octets := by
      intro rest part octets h0 hs hr
      refine .listener ?_ h0
      rw [hs]
      exact hannounces rest _ hr
    apply Heeds.bind _ (turn_respond hcourse₁ (by decide) hsending)
    · exact fun _ _ ha => ⟨ha.1, nofun⟩
    rintro u es₂ ⟨-, h₂⟩
    obtain ⟨first, rest, hr, rfl, hcourse₂, -⟩ := h₂ u rfl
    apply (turn_accept hcourse₂ (hannounces rest first hr)).outcome_bind
    rintro r es₃ ⟨hcourse₃, hl₃, hjoined⟩
    cases r with
    | error e => exact turn_refuse_awaited hcourse₃ (by decide) (.inr hl₃) e
    | ok peer =>
      apply heeds_pure
      refine ⟨hcourse₃.accepts_le (by decide), fun peer' hp => ?_⟩
      cases hp
      exact ⟨first, hjoined peer rfl⟩

theorem turn_closing_awaitPeer (h : Course es [] 0) (hl : ∃ a, ⟨.listen a, .ok ()⟩ ∈ es) :
    Heeds (InTurn config) es (closing .listener (awaitPeer config)) fun r es' =>
      accepts es' ≤ 1 ∧ ∀ peer, r = .ok (some peer) → ∃ first,
        Joined config es' first peer ∧ ⟨.close .listener, ()⟩ ∈ es' := by
  apply turn_closing
  apply (turn_awaitPeer h hl).mono
  rintro r es' ⟨ha, hj⟩
  refine ⟨ha, fun peer hp => ?_⟩
  obtain ⟨first, hjoined⟩ := hj peer hp
  refine ⟨first, hjoined.append (hjoined.course.concat (by simp) rfl) ?_, by simp⟩
  rw [custody_append]
  rfl

theorem turn_relay {first second : Bytes} (hc : Course es (first ++ second) 1)
    (hl : AnnouncesListener config es first) (hs : AnnouncesPeer es peer second)
    (hp : Partner es peer) :
    Heeds (InTurn config) es (onClient relay) fun _ es' => accepts es' ≤ 1 := by
  have hrelay : Operation.relay ≠ .refuse := by decide
  have hstarted : Course (es ++ (announced .relay []).map ofConnection) (first ++ second) 1 := by
    simpa using hc.announced hrelay []
  have honce := hc.once (by decide)
  apply heeds_onClient relay_conduct
  · rintro inner q (⟨rfl, rfl⟩ | ⟨rfl, rfl⟩ | rfl)
    · rw [List.map_nil, List.append_nil]
      exact hc.turn (by decide) nofun nofun nofun
    · refine ⟨honce _, nofun, nofun, fun _ => ?_, fun before after he => ?_⟩
      · refine ⟨first, second, peer, hl.append _, ⟨?_, hs.2⟩, hstarted.sent_eq, ?_⟩
        · exact List.mem_append_left _ hs.1
        · exact hp.append (by rw [custody_append_ofConnection])
      · exact absurd he (hstarted.ne_refused before after)
    · exact turn_of_once (honce _) (.inr ⟨_, rfl⟩)
  · exact fun inner r _ => honce inner

/-- The reply about the peer comes after the listener has been closed. -/
theorem turn_servePeer {first : Bytes} (h : Joined config es first peer)
    (hclosed : ⟨.close .listener, ()⟩ ∈ es) :
    Heeds (InTurn config) es (do
      keepAlive config.keepalive
      respond (.ofSocketAddress peer)
      onClient relay) fun _ es' => accepts es' ≤ 1 := by
  have hprobes : (keepAlive config.keepalive).Only Aside := by
    refine (only_keepAlive config.keepalive).mono ?_
    rintro q ⟨option, rfl⟩
    exact .inr ⟨option, rfl⟩
  apply Heeds.bind _ (turn_aside h.course (by decide) hprobes)
  · rintro e es' ⟨rest, rfl, hcourse, -⟩
    exact hcourse.accepts_le (by decide)
  rintro u es₁ ⟨rest, rfl, hcourse, hcustody⟩
  have hjoined := h.append hcourse (by rw [hcustody])
  have hsending : ∀ more part octets, accepts (es ++ rest ++ more) = 1 →
      sent (es ++ rest ++ more) = first ++ part →
        Announces (.ofSocketAddress peer) (part ++ octets) →
          Sending config (es ++ rest ++ more) octets := by
    intro more part octets _ hs hr
    refine .peer (hjoined.announced.append more) ⟨?_, hr⟩ ?_ hs rfl
    · exact List.mem_append_left _ hjoined.accepted
    · exact List.mem_append_left _ (List.mem_append_left _ hclosed)
  apply Heeds.bind _ (turn_respond hcourse (by decide) hsending)
  · exact fun _ _ ha => ha.1
  rintro u es₂ ⟨-, h₂⟩
  obtain ⟨second, more, hs, rfl, hcourse₂, hcustody₂⟩ := h₂ u rfl
  have hpeer : AnnouncesPeer (es ++ rest ++ more) peer second :=
    ⟨List.mem_append_left _ hjoined.accepted, hs⟩
  have hpartner := hjoined.partner.append (by rw [hcustody₂])
  exact turn_relay hcourse₂ (hjoined.announced.append more) hpeer hpartner

theorem turn_listen (config : Configuration) (requested : Address) :
    Heeds (InTurn config) [] (do listen (← resolve requested) : Action interface Unit)
      fun r es' => Course es' [] 0 ∧ ∀ u, r = .ok u → ∃ a, ⟨.listen a, .ok ()⟩ ∈ es' := by
  have hstart : Course [] [] 0 := ⟨rfl, rfl, by simp⟩
  have hlookup : (resolve requested).Only Aside := by
    refine (only_resolve requested).mono ?_
    rintro q ⟨name, rfl⟩
    exact .inl ⟨name, rfl⟩
  apply Heeds.bind _ (turn_aside hstart (by decide) hlookup)
  · rintro e es' ⟨rest, -, hcourse, -⟩
    exact ⟨hcourse, nofun⟩
  rintro a es' ⟨rest, -, hcourse, -⟩
  have hturn : InTurn config es' (.listen a) := hcourse.turn (by decide) nofun nofun nofun
  apply heeds_attempt hturn
  intro answer
  refine ⟨hcourse.concat (by simp) rfl, fun u hu => ?_⟩
  cases answer with
  | error e => cases hu
  | ok u => exact ⟨a, by simp⟩

theorem turn_serveBind (config : Configuration) (requested : Address) :
    Heeds (InTurn config) [] (serveBind config requested) fun _ es' => accepts es' ≤ 1 := by
  apply (turn_listen config requested).outcome_bind
  rintro r es₁ ⟨hcourse, hl⟩
  cases r with
  | error e => exact turn_refuse hcourse (by decide) (.inl rfl) e
  | ok u =>
    apply Heeds.bind _ (turn_closing_awaitPeer hcourse (hl u rfl))
    · exact fun _ _ h => h.1
    rintro peer es₂ ⟨ha, hj⟩
    cases peer with
    | none => exact heeds_pure ha
    | some peer =>
      obtain ⟨first, hjoined, hclosed⟩ := hj peer rfl
      refine Heeds.mono (turn_closing (P := fun _ _ => True) ?_) fun _ _ h => h.1
      exact (turn_servePeer hjoined hclosed).mono fun _ _ h => ⟨h, trivial⟩

end

/-- A bind that is allowed goes its one way, from the request of the client on. -/
theorem bind_in_turn {config : Configuration} {request : CommandRequest}
    {before : List (Exchange interface)} (hb : (readRequest config).Ends before (.ok request))
    (hc : request.command = .bind) (ha : config.allows .bind = true) :
    (∀ after q, (handle config).Asks (before ++ after) q → InTurn config after q) ∧
      ∀ after r, (handle config).Ends (before ++ after) r → accepts after ≤ 1 := by
  have hserve : serveCommand config request = serveBind config request.target := by
    simp [serveCommand, hc, ha]
  have hturn := turn_serveBind config request.target
  rw [← hserve] at hturn
  rw [handle_eq]
  constructor
  · rintro after q ⟨next, hn⟩
    exact hturn.1 after q ⟨next, hb.follows_bind hn⟩
  · intro after r hr
    exact hturn.2 after r (hb.follows_bind hr)

theorem in_turn_toldOfPeer :
    (readRequest (probing 30000)).Ends listenOpening (.ok listenRequest) ∧
      listenRequest.command = .bind ∧ (probing 30000).allows .bind = true ∧
        (handle (probing 30000)).Asks (listenOpening ++ toldOfPeer) (.client .relay) ∧
          InTurn (probing 30000) toldOfPeer (.client .relay) := by
  have hb : (readRequest (probing 30000)).Ends listenOpening (.ok listenRequest) := by
    decide +kernel
  have ha : (probing 30000).allows .bind = true := by decide
  have hr : (handle (probing 30000)).Asks (listenOpening ++ toldOfPeer) (.client .relay) := by
    decide +kernel
  exact ⟨hb, rfl, ha, hr, (bind_in_turn hb rfl ha).1 toldOfPeer _ hr⟩

end Session

end SocksProxy
