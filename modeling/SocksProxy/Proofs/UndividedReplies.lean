import SocksProxy.Proofs.Circumstances
import SocksProxy.Proofs.DelimitedReplies
import SocksProxy.Proofs.StageOrder

/-!
# Replies take effect whole or not at all

A reply is encoded before any of its octets is sent, and the stage that it leads to is entered
after the last one. So whatever the stream takes of it, the octets sent are the first ones of its
encoding, and the stage has changed when and only when all of them have been sent.
-/

namespace SocksProxy

open SocksProxy.Action

namespace Reply

variable {buffer : Bytes} {reply : Reply}

def encoding (reply : Reply) (buffer : Bytes) : Except Error Bytes :=
  (reply.encodeInto buffer).2.map (reply.encodeInto buffer).1.take

def sendFrom (buffer : Bytes) (reply : Reply) : Action OctetStream.interface Unit := do
  let octets ← ExceptT.mk (.done (reply.encoding buffer))
  OctetStream.sendAll octets

theorem encodeInto_of_octets_error {e : Error} (h : reply.octets = .error e)
    (hl : scratchSize ≤ buffer.length) : (reply.encodeInto buffer).2 = .error e := by
  cases reply with
  | method selected => cases h
  | subnegotiation accepted => cases h
  | command status bound =>
    cases hr : bound.record with
    | ok record => simp [octets_command hr] at h
    | error e' =>
      obtain rfl : e' = e := by simpa [octets, hr, Except.map] using h
      have hheader : 3 ≤ buffer.length := Nat.le_trans (by decide) hl
      rw [encodeInto_command hheader, Address.encodeInto_of_error hr]
      rfl

/-- What a buffer for messages has held before does not show in the encoding. -/
theorem encoding_eq (reply : Reply) (hl : scratchSize ≤ buffer.length) :
    reply.encoding buffer = reply.octets := by
  cases h : reply.octets with
  | error e =>
    rw [encoding, encodeInto_of_octets_error h hl]
    rfl
  | ok octets =>
    have hroom : octets.length ≤ buffer.length := Nat.le_trans (octets_length_le h) hl
    rw [encoding, encodeInto_of_octets h hroom]
    change Except.ok (List.take octets.length (octets ++ _)) = _
    rw [List.take_left' rfl]

theorem sendFrom_eq (reply : Reply) (hl : scratchSize ≤ buffer.length) :
    reply.sendFrom buffer = reply.send := by
  rw [sendFrom, encoding_eq reply hl, send_eq]
  cases reply.octets <;> rfl

/-- Octets that may have been sent of an encoding: the first ones, and none if there is none. -/
def Begun : Except Error Bytes → Bytes → Prop
  | .ok octets, out => out <+: octets
  | .error _, out => out = []

end Reply

open Reply

theorem Stage.after_ofStream (s : Stage) (stream : List (Exchange OctetStream.interface)) :
    s.after (stream.map Connection.ofStream) = s := by
  apply after_of_still
  intro e he next hq
  obtain ⟨d, -, rfl⟩ := List.mem_map.1 he
  cases hq

namespace Connection

variable {encoding : Except Error Bytes} {before after : Stage} {x : Action interface Unit}

/-- A reply on its way. -/
structure Pending (encoding : Except Error Bytes) (before : Stage) (es : List (Exchange interface))
    (q : Request) : Prop where
  begun : Begun encoding (sent es)
  stage_eq : before.after es = before
  outward : Outward (I := interface) q

/-- What has come of a reply that leads from one stage to another. -/
structure Concluded (encoding : Except Error Bytes) (before after : Stage)
    (es : List (Exchange interface)) (r : Except Error Unit) : Prop where
  begun : Begun encoding (sent es)
  ok_iff : r = .ok () ↔ encoding = .ok (sent es)
  unencoded : ∀ e, encoding = .error e → r = .error e
  accepted : ∀ octets, encoding = .ok octets → Accepting es → r = .ok ()
  failed : ∀ e, r = .error e → before.after es = before
  succeeded : r = .ok () → before.after es = after

theorem concluded_whole {octets : Bytes} {es : List (Exchange interface)} {u : Unit}
    (hs : sent es = octets) (ha : before.after es = after) :
    Concluded (.ok octets) before after es (.ok u) where
  begun := hs ▸ List.prefix_rfl
  ok_iff := ⟨fun _ => by rw [hs], fun _ => rfl⟩
  unencoded := nofun
  accepted _ _ _ := rfl
  failed := nofun
  succeeded _ := ha

theorem concluded_broken {octets rest : Bytes} {es : List (Exchange interface)} {e : Error}
    (hn : rest ≠ []) (hs : sent es ++ rest = octets) (ha : ¬ Accepting es)
    (hb : before.after es = before) : Concluded (.ok octets) before after es (.error e) where
  begun := ⟨rest, hs⟩
  ok_iff := by
    refine ⟨nofun, fun h => absurd ?_ hn⟩
    rw [Except.ok.inj h] at hs
    exact List.append_right_eq_self.1 hs
  unencoded := nofun
  accepted _ _ h := absurd h ha
  failed _ _ := hb
  succeeded := nofun

theorem concluded_unencoded {es : List (Exchange interface)} {e : Error} (hs : sent es = [])
    (hb : before.after es = before) : Concluded (.error e) before after es (.error e) where
  begun := hs
  ok_iff := ⟨nofun, nofun⟩
  unencoded _ h := congrArg Except.error (Except.error.inj h)
  accepted := nofun
  failed _ _ := hb
  succeeded := nofun

theorem send_concluded (reply : Reply) (before : Stage) :
    (send reply).Meets (Pending reply.octets before) (Concluded reply.octets before before) := by
  apply meets_onStream
  rw [Reply.send_eq]
  cases reply.octets with
  | error e => exact meets_throw (concluded_unencoded rfl rfl)
  | ok octets =>
    refine (OctetStream.sendAll_meets octets).mono ?_ ?_
    · rintro stream q ⟨-, -, rest, -, hs, rfl⟩
      refine ⟨⟨rest, ?_⟩, before.after_ofStream stream, fun _ => rfl⟩
      rw [sent_ofStream, hs]
    · intro stream r h
      cases r with
      | ok u => exact concluded_whole ((sent_ofStream stream).trans h.2.2) (before.after_ofStream _)
      | error e =>
        obtain ⟨-, ha, -, rest, hn, hs⟩ := h
        refine concluded_broken hn ?_ (mt accepting_ofStream.1 ha) (before.after_ofStream stream)
        rw [sent_ofStream, hs]

theorem Concluded.announce {es : List (Exchange interface)} {e : Error} (operation : Operation)
    (h : Concluded encoding before before es (.error e)) :
    Concluded encoding before after (⟨.started operation, ()⟩ :: es) (.error e) where
  begun := h.begun
  ok_iff := ⟨nofun, fun he => nomatch h.ok_iff.2 he⟩
  unencoded := h.unencoded
  accepted octets he ha := by
    rw [← List.singleton_append] at ha
    cases h.accepted octets he ha.of_append.2
  failed := h.failed
  succeeded := nofun

theorem reply_concluded (operation : Operation) (reply : Reply) (before after : Stage) :
    (do started operation; send reply; entered after).Meets (Pending reply.octets before)
      (Concluded reply.octets before after) := by
  have hnone : Begun reply.octets [] := by
    cases reply.octets with
    | ok octets => exact List.nil_prefix
    | error e => rfl
  refine meets_bind (meets_ask ⟨hnone, rfl, fun _ => rfl⟩ fun _ => ?_)
  refine meets_bind ((send_concluded reply before).mono ?_ ?_)
  · intro es q h
    exact ⟨h.begun, h.stage_eq, h.outward⟩
  · intro es r h
    cases r with
    | error e => exact h.announce operation
    | ok u =>
      refine meets_ask ⟨?_, ?_, fun _ => rfl⟩ fun _ => ?_
      · rw [List.append_nil]
        exact h.begun
      · rw [List.append_nil]
        exact h.succeeded rfl
      · rw [h.ok_iff.1 rfl]
        refine concluded_whole ?_ ?_
        · rw [sent_append, sent_append, sent_entered, List.append_nil]
          rfl
        · rw [Stage.after_append, Stage.after_append, Stage.after_entered]

/-- A reply that is sent whole and then enters a stage, or is cut off and leaves the stage as it has
been, and that comes to an end in any world. -/
structure Undivided (encoding : Except Error Bytes) (before after : Stage)
    (x : Action interface Unit) : Prop where
  meets : x.Meets (Pending encoding before) (Concluded encoding before after)
  ends : ∀ s : Circumstances interface,
    (∀ es q, Outward (I := interface) q → s.world es q ≠ none) → ∃ es r, s.Fits es ∧ x.Ends es r

theorem undivided_of_meets
    (h : x.Meets (Pending encoding before) (Concluded encoding before after)) :
    Undivided encoding before after x := by
  refine ⟨h, fun s hworld => ?_⟩
  obtain ⟨es, hfits, ⟨r, hr⟩ | ⟨q, hq, hstuck⟩⟩ := s.exists_concludes (x := x) (.refl _) trivial
  · exact ⟨es, r, hfits, hr⟩
  · have hout := (h.1 es q hq).outward
    obtain ⟨a, ha⟩ := Option.ne_none_iff_exists'.1 (hworld (others es) q hout)
    refine absurd ((Circumstances.answers_outward_iff hout).2 ?_) (hstuck a)
    change s.world (others es ++ []) q = some a
    rw [List.append_nil]
    exact ha

/-- Replies to a command and refusals are sent whole or leave the stage as it was, at whatever stage
they begin and whatever the buffer for messages has held before. -/
theorem replies_undivided (before : Stage) {buffer : Bytes} (hl : scratchSize ≤ buffer.length) :
    (∀ reply, reply.sendFrom buffer = reply.send ∧
        Undivided (reply.encoding buffer) before before (send reply)) ∧
      (∀ status bound, Undivided ((Reply.command status bound).encoding buffer) before
        (if status = .succeeded then .active else .rejected) (respond status bound)) ∧
      ∀ status, Undivided ((Reply.failure status).encoding buffer) before .rejected
        (refuse status) := by
  refine ⟨fun reply => ⟨sendFrom_eq reply hl, ?_⟩, fun status bound => ?_, fun status => ?_⟩
  · rw [encoding_eq reply hl]
    exact undivided_of_meets (send_concluded reply before)
  · rw [encoding_eq (.command status bound) hl]
    exact undivided_of_meets (reply_concluded .respond (.command status bound) before _)
  · rw [encoding_eq (.failure status) hl]
    exact undivided_of_meets (reply_concluded .refuse (.failure status) before .rejected)

def cutReply : List (Exchange interface) :=
  [⟨.started .respond, ()⟩,
    ⟨.stream (.send [5, 0, 0, 1, 127, 0, 0, 1, 0, 80]), .ok ⟨3, by decide⟩⟩,
    ⟨.stream (.send [1, 127, 0, 0, 1, 0, 80]), .error (.raised .brokenPipe)⟩]

def oneAtATime : Circumstances interface where
  input := []
  ending := .silent
  world _ q :=
    match q with
    | .stream (.receive _) => none
    | .stream (.send octets) => some (.ok ⟨min 1 octets.length, Nat.min_le_right ..⟩)
    | .started _ | .entered _ => some ()
    | .relay => some (.ok (0, 0))

theorem oneAtATime_answers (es : List (Exchange interface)) {q : Request}
    (hq : Outward (I := interface) q) : oneAtATime.world es q ≠ none := by
  cases q with
  | stream q =>
    cases q with
    | receive limit => exact absurd (hq (.error (.raised .other))) nofun
    | send octets => exact Option.some_ne_none _
  | _ => exact Option.some_ne_none _

theorem undivided_cutReply :
    scratchSize ≤ (List.replicate scratchSize (7 : UInt8)).length ∧
      (respond .succeeded ⟨.ipv4, "127.0.0.1:80".toList⟩).Ends cutReply
        (.error (.io (.raised .brokenPipe))) ∧
      sent cutReply = [5, 0, 0] ∧ Stage.commandParsed.after cutReply = .commandParsed ∧
      ∃ es r, oneAtATime.Fits es ∧
        (respond .succeeded ⟨.ipv4, "127.0.0.1:80".toList⟩).Ends es r := by
  have hl : scratchSize ≤ (List.replicate scratchSize (7 : UInt8)).length :=
    Nat.le_of_eq List.length_replicate.symm
  have hends : (respond .succeeded ⟨.ipv4, "127.0.0.1:80".toList⟩).Ends cutReply
      (.error (.io (.raised .brokenPipe))) := by decide +kernel
  have hundivided := (replies_undivided .commandParsed hl).2.1 .succeeded
    ⟨.ipv4, "127.0.0.1:80".toList⟩
  exact ⟨hl, hends, rfl, (hundivided.meets.2 _ _ hends).failed _ rfl,
    hundivided.ends oneAtATime fun es _ hq => oneAtATime_answers es hq⟩

end Connection

end SocksProxy
