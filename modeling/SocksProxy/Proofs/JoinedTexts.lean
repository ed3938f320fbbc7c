import SocksProxy.Proofs.AddressTexts

/-!
# What splitting makes of joined texts

A text is split into a host and a port if neither holds a bracket and it is one of two forms, with
the host in brackets or without. Splitting therefore undoes joining for a host without brackets. A
host that holds one is not found again: most often the text is refused, but one that is nothing
else than another host in brackets is taken for that host.
-/

namespace SocksProxy

namespace HostPort

def enclosed (host : Text) : Text := '[' :: host ++ [']']

theorem enclosed_injective {h h' : Text} (he : enclosed h = enclosed h') : h = h' := by
  simpa [enclosed] using he

theorem not_open_enclosed (host : Text) : ¬ Open (enclosed host) := by
  intro h
  have hb := h '[' (by simp [enclosed])
  exact absurd hb (by decide)

theorem join_eq (host : Text) (port : UInt16) :
    join host port = (if ':' ∈ host then enclosed host else host) ++ ':' :: portText port := by
  unfold join
  by_cases h : ':' ∈ host
  · simp [h, enclosed]
  · simp [h]

theorem append_colon_inj {front front' back back' : Text} (hb : ':' ∉ back) (hb' : ':' ∉ back')
    (h : front ++ ':' :: back = front' ++ ':' :: back') : front = front' ∧ back = back' := by
  have hr : back.reverse ++ ':' :: front.reverse = back'.reverse ++ ':' :: front'.reverse := by
    simpa using congrArg List.reverse h
  have hc : cut ':' (back.reverse ++ ':' :: front.reverse) = some (back.reverse, front.reverse) :=
    cut_eq_some_iff.2 ⟨rfl, by simpa using hb⟩
  have hc' : cut ':' (back.reverse ++ ':' :: front.reverse) =
      some (back'.reverse, front'.reverse) := cut_eq_some_iff.2 ⟨hr, by simpa using hb'⟩
  rw [hc] at hc'
  simpa [and_comm] using hc'

theorem open_of_any_isBracket {t : Text} (h : t.any isBracket = false) : Open t := by
  simpa using h

theorem of_cutHost {t host port : Text} (h : cutHost t = some (host, port)) :
    t = enclosed host ++ ':' :: port ∨ ':' ∉ host ∧ t = host ++ ':' :: port := by
  unfold cutHost at h
  split at h
  case h_1 rest =>
    split at h
    case h_2 => cases h
    case h_1 host' port' hc =>
      cases h
      obtain ⟨rfl, -⟩ := cut_eq_some_iff.1 hc
      left
      simp [enclosed]
  case h_2 =>
    obtain ⟨rfl, hn⟩ := cut_eq_some_iff.1 h
    exact .inr ⟨hn, rfl⟩

theorem split?_eq_some_iff {t host port : Text} :
    split? t = some (host, port) ↔ Open host ∧ Open port ∧ ':' ∉ port ∧
      (t = enclosed host ++ ':' :: port ∨ ':' ∉ host ∧ t = host ++ ':' :: port) := by
  constructor
  · intro h
    unfold split? at h
    split at h
    case h_2 => cases h
    case h_1 host' port' hc =>
      split at h
      case isTrue => cases h
      case isFalse hn =>
        cases h
        simp only [Bool.or_eq_true, not_or, Bool.not_eq_true, List.contains_eq_mem,
          decide_eq_false_iff_not] at hn
        obtain ⟨⟨hh, hp⟩, hcolon⟩ := hn
        exact ⟨open_of_any_isBracket hh, open_of_any_isBracket hp, hcolon, of_cutHost hc⟩
  · rintro ⟨hh, hp, hcolon, rfl | ⟨hn, rfl⟩⟩
    · have ht : enclosed host ++ ':' :: port = '[' :: host ++ ']' :: ':' :: port := by
        simp [enclosed]
      rw [ht]
      exact split?_bracketed hh hp hcolon
    · exact split?_plain hh hn hp hcolon

/-- What a joined text is split into: its host and its port, unless the host holds a bracket. -/
theorem split?_join_eq_some_iff {host found digits : Text} {port : UInt16} :
    split? (join host port) = some (found, digits) ↔ digits = portText port ∧ Open found ∧
      (found = host ∨ ':' ∉ found ∧ host = enclosed found) := by
  rw [split?_eq_some_iff, join_eq]
  have hport := colon_not_mem_portText port
  constructor
  · rintro ⟨hfound, -, hcolon, he | ⟨hn, he⟩⟩
    · obtain ⟨hfront, rfl⟩ := append_colon_inj hport hcolon he
      refine ⟨rfl, hfound, ?_⟩
      by_cases hc : ':' ∈ host
      · rw [if_pos hc] at hfront
        exact .inl (enclosed_injective hfront).symm
      · rw [if_neg hc] at hfront
        refine .inr ⟨?_, hfront⟩
        intro hm
        apply hc
        rw [hfront]
        simp [enclosed, hm]
    · obtain ⟨hfront, rfl⟩ := append_colon_inj hport hcolon he
      refine ⟨rfl, hfound, .inl ?_⟩
      by_cases hc : ':' ∈ host
      · rw [if_pos hc] at hfront
        rw [← hfront] at hfound
        exact absurd hfound (not_open_enclosed host)
      · rw [if_neg hc] at hfront
        exact hfront.symm
  · rintro ⟨rfl, hfound, rfl | ⟨hn, rfl⟩⟩
    · refine ⟨hfound, open_portText port, hport, ?_⟩
      by_cases hc : ':' ∈ found
      · rw [if_pos hc]
        exact .inl rfl
      · rw [if_neg hc]
        exact .inr ⟨hc, rfl⟩
    · have hc : ':' ∉ enclosed found := by simp [enclosed, hn]
      rw [if_neg hc]
      exact ⟨hfound, open_portText port, hport, .inl rfl⟩

theorem split?_join {host : Text} (h : Open host) (port : UInt16) :
    split? (join host port) = some (host, portText port) :=
  split?_join_eq_some_iff.2 ⟨rfl, h, .inl rfl⟩

end HostPort

end SocksProxy
