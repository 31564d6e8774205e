import TenantGate.Proofs.ParsedUrls
/-!
# Authorities that are read again

The authority of a URL without user information is read as that of a URI if its host is an address
or a name of letters, digits, hyphens and dots.  An address in brackets has few enough colons, and
only the one before the port number counts in the end.
-/

namespace TenantGate

namespace Uri

def isPassed (c : Char) : Bool := isAuthorityChar c && !":[]@".toList.contains c

def Passes (s : List Char) : Prop := ∀ c ∈ s, isPassed c = true ∨ c = ':'

theorem passes_of_all {s : List Char} (h : ∀ c ∈ s, isPassed c = true) : Passes s :=
  fun c hc => .inl (h c hc)

theorem count_colon {s : List Char} (h : ∀ c ∈ s, isPassed c = true) : s.count ':' = 0 := by
  rw [List.count_eq_zero]
  intro hmem
  exact absurd (h ':' hmem) (by decide)

theorem isPassed_toDigits (base n : Nat) : ∀ c ∈ Nat.toDigits base n, isPassed c = true :=
  Text.forall_mem_toDigits (Text.forall_digitChar (by decide) (by decide)) base n

namespace Seen

variable {seen : Seen} (hend : seen.endsAtSign = false)
include hend

theorem next_passed {c : Char} (hc : isPassed c = true) : seen.next c = .ok seen := by
  have hne (d : Char) (hd : isPassed d = false) : c ≠ d := Text.ne_of_test hc hd
  have hchar : isAuthorityChar c = true := (Bool.and_eq_true_iff.1 hc).1
  obtain ⟨colons, opened, closed, percent, endsAtSign⟩ := seen
  obtain rfl : endsAtSign = false := hend
  simp [next, hne ':' (by decide), hne '[' (by decide), hne ']' (by decide), hne '@' (by decide),
    hne '%' (by decide), hchar]

theorem next_colon (h : seen.colons < 8) :
    seen.next ':' = .ok { seen with colons := seen.colons + 1 } := by
  have hfew : ¬8 ≤ seen.colons := by omega
  simp [next, hfew, hend]

theorem foldlM_next {s : List Char} (hs : Passes s) (hcolons : seen.colons + s.count ':' ≤ 8) :
    s.foldlM next seen = .ok { seen with colons := seen.colons + s.count ':' } := by
  induction s generalizing seen with
  | nil => rfl
  | cons c s ih =>
    have hrest : Passes s := fun d hd => hs d (List.mem_cons_of_mem c hd)
    rw [List.foldlM_cons]
    by_cases hc : c = ':'
    · subst hc
      rw [List.count_cons_self] at hcolons ⊢
      let later : Seen := { seen with colons := seen.colons + 1 }
      have hlater : later.colons + s.count ':' ≤ 8 := by
        show seen.colons + 1 + s.count ':' ≤ 8
        omega
      have hsum : later.colons + s.count ':' = seen.colons + (s.count ':' + 1) := by
        show seen.colons + 1 + s.count ':' = _
        omega
      have hrun : s.foldlM next later = .ok { later with colons := later.colons + s.count ':' } :=
        ih hend hrest hlater
      rw [next_colon hend (by omega), Result.ok_bind, hrun, hsum]
    · have hpassed : isPassed c = true := (hs c List.mem_cons_self).resolve_right hc
      rw [List.count_cons_of_ne hc] at hcolons ⊢
      rw [next_passed hend hpassed, Result.ok_bind, ih hend hrest hcolons]

end Seen

theorem checkAuthority_plain {s : List Char} (hs : Passes s) (hcolons : s.count ':' ≤ 1) :
    checkAuthority s = .ok () := by
  have hfew : ({} : Seen).colons + s.count ':' ≤ 8 := by
    show 0 + s.count ':' ≤ 8
    omega
  rw [checkAuthority, Seen.foldlM_next rfl hs hfew, Result.ok_bind]
  exact if_pos (by simpa [Seen.isComplete] using hcolons)

theorem checkAuthority_bracketed {s t : List Char} (hs : Passes s) (hcolons : s.count ':' ≤ 8)
    (ht : Passes t) (hport : t.count ':' ≤ 1) : checkAuthority ('[' :: (s ++ ']' :: t)) = .ok () := by
  have hopen : ({} : Seen).next '[' = .ok { opened := true } := rfl
  have hfew : ({ opened := true } : Seen).colons + s.count ':' ≤ 8 := by
    show 0 + s.count ':' ≤ 8
    omega
  have hclose (n : Nat) : ({ opened := true, colons := n } : Seen).next ']'
      = .ok { opened := true, closed := true } := rfl
  have hafter : ({ opened := true, closed := true } : Seen).colons + t.count ':' ≤ 8 := by
    show 0 + t.count ':' ≤ 8
    omega
  rw [checkAuthority, List.foldlM_cons, hopen, Result.ok_bind, List.foldlM_append,
    Seen.foldlM_next rfl hs hfew, Result.ok_bind, List.foldlM_cons, hclose, Result.ok_bind,
    Seen.foldlM_next rfl ht hafter, Result.ok_bind]
  exact if_pos (by simpa [Seen.isComplete] using hport)

end Uri

namespace Host

/-- An address, or a name of letters, digits, hyphens and dots. -/
inductive IsUsual : String → Prop
  | ipv4 (n : Nat) : IsUsual (ipv4Text n)
  | ipv6 {s : List Char} {pieces : List Nat} (h : ipv6? s = some pieces) : IsUsual (ipv6Text pieces)
  | name {host : String} (h : ∀ c ∈ host.toList, c.isAlphanum = true ∨ c = '-' ∨ c = '.') :
    IsUsual host

theorem length_of_ipv6? {s : List Char} {pieces : List Nat} (h : ipv6? s = some pieces) :
    pieces.length = 8 := by
  unfold ipv6? at h
  split at h
  · obtain ⟨all, _, h⟩ := Option.bind_eq_some_iff.1 h
    split at h
    · next hlength =>
      obtain rfl := Option.some.inj h
      exact hlength
    · cases h
  · obtain ⟨front, _, h⟩ := Option.bind_eq_some_iff.1 h
    obtain ⟨back, _, h⟩ := Option.bind_eq_some_iff.1 h
    dsimp only at h
    split at h
    · cases h
    · obtain rfl := Option.some.inj h
      simp only [List.length_append, List.length_replicate]
      omega

theorem longestZeros_le (i : Nat) (pieces : List Nat) :
    (longestZeros i pieces).1 + (longestZeros i pieces).2 ≤ i + pieces.length := by
  induction pieces generalizing i with
  | nil => exact Nat.zero_le _
  | cons n rest ih =>
    have hhere : ((n :: rest).takeWhile (· = 0)).length ≤ (n :: rest).length :=
      (List.takeWhile_sublist _).length_le
    have hlater := ih (i + 1)
    rw [longestZeros]
    split
    · omega
    · rw [List.length_cons]
      omega

def hexPieces (pieces : List Nat) : List Char := [':'].intercalate (pieces.map (Nat.toDigits 16))

theorem passes_hexPieces (pieces : List Nat) : Uri.Passes (hexPieces pieces) := by
  apply Text.forall_mem_intercalate
  · simp
  · intro x hx
    obtain ⟨n, _, rfl⟩ := List.mem_map.1 hx
    exact Uri.passes_of_all (Uri.isPassed_toDigits 16 n)

theorem count_hexPieces (pieces : List Nat) : (hexPieces pieces).count ':' ≤ pieces.length - 1 := by
  induction pieces with
  | nil => exact Nat.zero_le _
  | cons n rest ih =>
    have hdigits := Uri.count_colon (Uri.isPassed_toDigits 16 n)
    cases rest with
    | nil => simp [hexPieces, hdigits]
    | cons m rest =>
      have hcons : hexPieces (n :: m :: rest) = Nat.toDigits 16 n ++ [':'] ++ hexPieces (m :: rest) := by
        simp [hexPieces]
      rw [hcons, List.count_append, List.count_append, hdigits]
      simp only [List.length_cons, List.count_singleton_self] at ih ⊢
      omega

theorem exists_bracketed {pieces : List Nat} (h : pieces.length = 8) : ∃ s,
    (ipv6Text pieces).toList = '[' :: (s ++ [']']) ∧ Uri.Passes s ∧ s.count ':' ≤ 8 := by
  have hle := longestZeros_le 0 pieces
  unfold ipv6Text
  dsimp only
  split
  · refine ⟨hexPieces pieces, by simp [hexPieces, Function.comp_def], passes_hexPieces pieces, ?_⟩
    have hcount := count_hexPieces pieces
    omega
  · next hgap =>
    let front := hexPieces (pieces.take (longestZeros 0 pieces).1)
    let back := hexPieces (pieces.drop ((longestZeros 0 pieces).1 + (longestZeros 0 pieces).2))
    have hfront : front.count ':' ≤ _ := count_hexPieces _
    have hback : back.count ':' ≤ _ := count_hexPieces _
    refine ⟨front ++ [':', ':'] ++ back, by simp [front, back, hexPieces, Function.comp_def], ?_, ?_⟩
    · intro c hc
      simp only [List.mem_append] at hc
      rcases hc with (hc | hc) | hc
      · exact passes_hexPieces _ c hc
      · exact .inr (by simpa using hc)
      · exact passes_hexPieces _ c hc
    · have hgapCount : [':', ':'].count ':' = 2 := by decide
      rw [List.length_take] at hfront
      rw [List.length_drop] at hback
      rw [List.count_append, List.count_append, hgapCount]
      omega

theorem isPassed_ipv4Text (n : Nat) : ∀ c ∈ (ipv4Text n).toList, Uri.isPassed c = true := by
  rw [ipv4Text, String.toList_intercalate]
  apply Text.forall_mem_intercalate
  · intro c hc
    obtain rfl : c = '.' := by simpa using hc
    decide
  · intro x hx
    obtain ⟨y, hy, rfl⟩ := List.mem_map.1 hx
    obtain ⟨m, _, rfl⟩ := List.mem_map.1 hy
    rw [Nat.repr_eq_ofList_toDigits, String.toList_ofList]
    exact Uri.isPassed_toDigits 10 m

theorem isPassed_of_name {c : Char} (h : c.isAlphanum = true ∨ c = '-' ∨ c = '.') :
    Uri.isPassed c = true := by
  rcases h with h | rfl | rfl
  · have hne (d : Char) (hd : d.isAlphanum = false) : c ≠ d := Text.ne_of_test h hd
    simp [Uri.isPassed, Uri.isAuthorityChar, h, hne ':' (by decide), hne '[' (by decide),
      hne ']' (by decide), hne '@' (by decide)]
  · decide
  · decide

end Host

namespace Url

def portText : Option Nat → List Char
  | some n => ':' :: Nat.toDigits 10 n
  | none => []

theorem passes_portText (portNumber : Option Nat) : Uri.Passes (portText portNumber) := by
  cases portNumber with
  | none => exact Uri.passes_of_all (by simp [portText])
  | some n =>
    intro c hc
    rcases List.mem_cons.1 hc with rfl | hc
    · exact .inr rfl
    · exact .inl (Uri.isPassed_toDigits 10 n c hc)

theorem count_portText (portNumber : Option Nat) : (portText portNumber).count ':' ≤ 1 := by
  cases portNumber with
  | none => exact Nat.zero_le _
  | some n =>
    apply Nat.le_of_eq
    rw [portText, List.count_cons_self, Uri.count_colon (Uri.isPassed_toDigits 10 n)]

structure IsUserless (a : UrlAuthority) : Prop where
  username : a.username = ""
  password : a.password = ""

theorem IsUserless.toList_text {a : UrlAuthority} (h : IsUserless a) :
    (UrlAuthority.text a).toList = a.host.toList ++ portText a.portNumber := by
  rw [UrlAuthority.text, h.username, h.password]
  cases a.portNumber with
  | none => simp [portText]
  | some n => simp [portText, Nat.repr_eq_ofList_toDigits]

/-- What is written for a usual host is an authority of a URI. -/
theorem checkAuthority_text {a : UrlAuthority} (hhost : Host.IsUsual a.host) (huser : IsUserless a) :
    Uri.checkAuthority (UrlAuthority.text a).toList = .ok () := by
  have hport := passes_portText a.portNumber
  have hcount := count_portText a.portNumber
  have plain (hpassed : ∀ c ∈ a.host.toList, Uri.isPassed c = true) :
      Uri.checkAuthority (a.host.toList ++ portText a.portNumber) = .ok () := by
    apply Uri.checkAuthority_plain
    · exact List.forall_mem_append.2 ⟨Uri.passes_of_all hpassed, hport⟩
    · rw [List.count_append, Uri.count_colon hpassed]
      omega
  rw [huser.toList_text]
  generalize hname : a.host = host at *
  cases hhost with
  | ipv4 n => exact plain (Host.isPassed_ipv4Text n)
  | ipv6 hpieces =>
    obtain ⟨s, hs, hpasses, hcolons⟩ := Host.exists_bracketed (Host.length_of_ipv6? hpieces)
    have happend : '[' :: (s ++ [']']) ++ portText a.portNumber
        = '[' :: (s ++ ']' :: portText a.portNumber) := by simp
    rw [hs, happend]
    exact Uri.checkAuthority_bracketed hpasses hcolons hport hcount
  | name hchars => exact plain fun c hc => Host.isPassed_of_name (hchars c hc)

end Url
end TenantGate
