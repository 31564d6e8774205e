import TenantGate.Proofs.JsonAttempts
import TenantGate.Proofs.JsonRefusals
import TenantGate.Token.Claims
import TenantGate.Token.Header
/-!
# Headers and claims in documents

What an object says as the header or as the claims of a token does not depend on how it is written,
and both are read from any writing of it.
-/

namespace TenantGate
namespace Json

namespace Tree

def algorithm? : Tree → Option Algorithm
  | .text s => Algorithm.ofName? s
  | .object [(s, .null)] => Algorithm.ofName? s
  | _ => none

def key? : Tree → Option Unit
  | .object ps => do
    let members ← ps.mapM fun p => (p.2.value? EmbeddedKey.nesting).map (p.1, ·)
    (EmbeddedKey.check members).toOption
  | _ => none

end Tree

theorem passesBlanks_key : PassesBlanks EmbeddedKey.read := by
  intro s
  simp only [EmbeddedKey.read, skipSpace_idem]

theorem reads_key? (v : Tree) (x : Unit) (h : v.key? = some x) : Reads EmbeddedKey.read v x := by
  cases v with
  | object ps =>
    obtain ⟨members, hmembers, hcheck⟩ := Option.bind_eq_some_iff.1 h
    intro s hs rest _
    obtain ⟨r, hr, hentries⟩ := entries_of_object
      (fun v x (h : v.value? EmbeddedKey.nesting = some x) => Value.reads_of_value? h) hs hmembers rest
    cases hc : EmbeddedKey.check members with
    | error cause => simp [hc, Except.toOption] at hcheck
    | ok u => simp only [EmbeddedKey.read, hr, hentries, bind, Except.bind, closeObject_brace, hc]; rfl
  | null | boolean | number | text | list => simp [Tree.key?] at h

theorem readAlgorithm_text {t : String} {a : Algorithm} (ha : Algorithm.ofName? t = some a) :
    Reads TokenHeader.readAlgorithm (.text t) a := by
  intro s h rest _
  cases h with
  | @text w t s hw h =>
    have hquote := skipSpace_quoted hw (b := 0x22) (by decide) s 0x22 rest
    have hread := readText_spells h rest
    simp only [TokenHeader.readAlgorithm, hquote, hread, bind, Except.bind, ha]

theorem readAlgorithm_object {t : String} {a : Algorithm} (ha : Algorithm.ofName? t = some a) :
    Reads TokenHeader.readAlgorithm (.object [(t, .null)]) a := by
  intro s h rest _
  cases h with
  | @object w w' m ms s hw h hw' =>
    cases h with
    | lastMember h =>
      cases h with
      | @pair v v' name _ n s hv hn hv' hnull =>
        cases hnull with
        | @null u hu =>
          have hopen : skipSpace (w ++ 0x7b :: (v ++ 0x22 :: (n ++ 0x22 :: (v' ++ 0x3a ::
              (u ++ [0x6e, 0x75, 0x6c, 0x6c]))) ++ (w' ++ [0x7d])) ++ rest)
              = 0x7b :: (v ++ 0x22 :: (n ++ 0x22 :: (v' ++ 0x3a :: (u ++ 0x6e ::
                ([0x75, 0x6c, 0x6c] ++ (w' ++ 0x7d :: rest)))))) := by
            simpa using skipSpace_lead hw (b := 0x7b) (by decide) _
          have hquote := skipSpace_lead hv (b := 0x22) (by decide) (n ++ 0x22 :: (v' ++ 0x3a ::
            (u ++ 0x6e :: ([0x75, 0x6c, 0x6c] ++ (w' ++ 0x7d :: rest)))))
          have hread := readText_spells hn (v' ++ 0x3a ::
            (u ++ 0x6e :: ([0x75, 0x6c, 0x6c] ++ (w' ++ 0x7d :: rest))))
          have hcolon := colon_close hv' (u ++ 0x6e :: ([0x75, 0x6c, 0x6c] ++ (w' ++ 0x7d :: rest)))
          have hnull := skipSpace_lead hu (b := 0x6e) (by decide)
            ([0x75, 0x6c, 0x6c] ++ (w' ++ 0x7d :: rest))
          have hclose := skipSpace_close hw' (b := 0x7d) (by decide) rest
          simp only [TokenHeader.readAlgorithm, hopen, hquote, hread, bind, Except.bind, ha, hcolon,
            hnull, word_append, hclose]
          rfl

theorem reads_algorithm? (v : Tree) (a : Algorithm) (h : v.algorithm? = some a) :
    Reads TokenHeader.readAlgorithm v a := by
  unfold Tree.algorithm? at h
  split at h
  · exact readAlgorithm_text h
  · exact readAlgorithm_object h
  · simp at h

end Json

namespace Claims

open Json

/-- What an object says as the claims of a token. -/
structure Stated (ps : List (String × Tree)) (c : Claims) : Prop where
  subject : member? Tree.text? ps "sub" = some c.subject
  expires : member? Tree.int? ps "exp" = some c.expires
  notBefore : member? Tree.int? ps "nbf" = some c.notBefore
  issuedAt : member? Tree.int? ps "iat" = some c.issuedAt

def effect (p : String × Tree) (c : Claims) : Claims :=
  if p.1 = "sub" then { c with subject := (p.2.nullable? Tree.text?).join }
  else if p.1 = "exp" then { c with expires := (p.2.nullable? Tree.int?).join }
  else if p.1 = "nbf" then { c with notBefore := (p.2.nullable? Tree.int?).join }
  else if p.1 = "iat" then { c with issuedAt := (p.2.nullable? Tree.int?).join }
  else c

theorem fits_effect {ps : List (String × Tree)} {c : Claims} (hs : Stated ps c)
    (once : ∀ name, Once ps name) : ∀ q ∈ ps, Fits members effect q := by
  rintro ⟨name, v⟩ hq
  by_cases hsub : name = "sub"
  · subst hsub
    exact fits_of_member? hs.subject (once _) _ rfl passesBlanks_text reads_text?
      (fun v d => by simp [effect]) hq
  by_cases hexp : name = "exp"
  · subst hexp
    exact fits_of_member? hs.expires (once _) _ rfl passesBlanks_int64 reads_int?
      (fun v d => by simp [effect]) hq
  by_cases hnbf : name = "nbf"
  · subst hnbf
    exact fits_of_member? hs.notBefore (once _) _ rfl passesBlanks_int64 reads_int?
      (fun v d => by simp [effect]) hq
  by_cases hiat : name = "iat"
  · subst hiat
    exact fits_of_member? hs.issuedAt (once _) _ rfl passesBlanks_int64 reads_int?
      (fun v d => by simp [effect]) hq
  have hunknown : members.find? (·.name == name) = none := by
    simp [members, optionalMember, Ne.symm hsub, Ne.symm hexp, Ne.symm hnbf, Ne.symm hiat]
  simp only [Fits, hunknown]
  intro draft
  simp [effect, hsub, hexp, hnbf, hiat]

theorem foldl_effect {ps : List (String × Tree)} {c : Claims} (hs : Stated ps c)
    (once : ∀ name, Once ps name) : ps.foldl (fun d q => effect q d) {} = c := by
  have hsubject := foldl_member? hs.subject (once _) effect subject (d := {})
    (fun v d => by simp [effect]) (fun p d hp => by grind [effect]) rfl
  have hexpires := foldl_member? hs.expires (once _) effect expires (d := {})
    (fun v d => by simp [effect]) (fun p d hp => by grind [effect]) rfl
  have hnotBefore := foldl_member? hs.notBefore (once _) effect notBefore (d := {})
    (fun v d => by simp [effect]) (fun p d hp => by grind [effect]) rfl
  have hissuedAt := foldl_member? hs.issuedAt (once _) effect issuedAt (d := {})
    (fun v d => by simp [effect]) (fun p d hp => by grind [effect]) rfl
  generalize ps.foldl (fun d q => effect q d) {} = d at *
  obtain ⟨subject, expires, notBefore, issuedAt⟩ := d
  obtain ⟨rfl, rfl, rfl, rfl⟩ : subject = c.subject ∧ expires = c.expires ∧
      notBefore = c.notBefore ∧ issuedAt = c.issuedAt :=
    ⟨hsubject, hexpires, hnotBefore, hissuedAt⟩
  rfl

theorem reads_read {ps : List (String × Tree)} {c : Claims} (hs : Stated ps c)
    (once : ∀ name, Once ps name) : Reads read (.object ps) c :=
  reads_record (fits_effect hs once) (fun name _ => once name)
    (congrArg Except.ok (foldl_effect hs once))

theorem passes_of_nullable {α : Type} {decode : Tree → Option α}
    (h : ∀ v, (decode v).isSome = true → v.Passes nesting) {v : Tree} {x : Option α}
    (hv : v.nullable? decode = some x) : v.Passes nesting := by
  by_cases hnull : v = .null
  · subst hnull
    exact trivial
  · rw [Tree.nullable?_of_ne_null hnull] at hv
    obtain ⟨y, hy, _⟩ := Option.map_eq_some_iff.1 hv
    exact h v (by simp [hy])

theorem passes_of_text? (v : Tree) (h : v.text?.isSome = true) : v.Passes nesting := by
  cases v with
  | text => exact trivial
  | null | boolean | number | list | object => simp [Tree.text?] at h

theorem passes_of_int? (v : Tree) (h : v.int?.isSome = true) : v.Passes nesting := by
  cases v with
  | number n =>
    refine .inr fun e he => ?_
    simp [Tree.int?, Numeral.int?, he] at h
  | null | boolean | text | list | object => simp [Tree.int?] at h

/-- The claims that are registered but do not count here. -/
def uncounted : List String := ["iss", "aud"]

/-- The claims that do not count can be read and let go. -/
def Passing (ps : List (String × Tree)) : Prop :=
  ∀ name ∈ uncounted, ∀ v, (name, v) ∈ ps → v.Passes nesting

/-- The registered claims are read from any writing of an object that states claims and in which
the other registered claims pass. -/
theorem reads_readRegistered {ps : List (String × Tree)} {c : Claims} (hs : Stated ps c)
    (once : ∀ name, Once ps name) (hpassing : Passing ps) :
    Reads readRegistered (.object ps) () := by
  have hpasses : ∀ m ∈ registered, ∀ v, (m.name, v) ∈ ps → v.Passes nesting := by
    intro m hm v hv
    simp only [registered, List.mem_cons, List.not_mem_nil, or_false] at hm
    rcases hm with rfl | rfl | rfl | rfl | rfl
    · exact passes_of_nullable passes_of_int? (nullable?_of_mem hs.expires (once _) hv)
    · exact passes_of_nullable passes_of_int? (nullable?_of_mem hs.notBefore (once _) hv)
    · exact passes_of_nullable passes_of_text? (nullable?_of_mem hs.subject (once _) hv)
    · exact hpassing "iss" (by simp [uncounted]) v hv
    · exact hpassing "aud" (by simp [uncounted]) v hv
  have hfits : ∀ q ∈ ps, Fits registered (fun _ d => d) q := by
    rintro ⟨name, v⟩ hq
    unfold Fits
    split
    · exact fun _ => rfl
    · next m hm =>
      have hmem := List.mem_of_find?_eq_some hm
      obtain rfl : m.name = name := by simpa using List.find?_some hm
      have hread : m.read () = attempt (Value.read nesting) := by
        simp only [registered, List.mem_cons, List.not_mem_nil, or_false] at hmem
        rcases hmem with rfl | rfl | rfl | rfl | rfl <;> rfl
      intro draft
      rw [hread]
      exact (Value.stopsAfter_of_passes (hpasses m hmem v hq)).reads_attempt
  exact reads_record hfits (fun name _ => once name) rfl

theorem ofDocument_writes {ps : List (String × Tree)} {c : Claims} (hs : Stated ps c)
    (hnames : (ps.map (·.1)).Nodup) (hpassing : Passing ps) {s w : Bytes}
    (h : Writes (.value (.object ps)) s) (hw : Blank w) : ofDocument (s ++ w) = .ok c := by
  have once := once_of_nodup hnames
  simp only [ofDocument, document_of_reads (reads_read hs once) h hw,
    document_of_reads (reads_readRegistered hs once hpassing) h hw, bind, Except.bind]
  rfl

end Claims

namespace TokenHeader

open Json

def textNames : List String := ["typ", "cty", "jku", "x5u", "x5t", "x5t#S256"]

/-- What an object says as the header of a token.  Members that are read for their kind only may be
missing or null. -/
structure Stated (ps : List (String × Tree)) (h : TokenHeader) : Prop where
  algorithm : (ps.lookup "alg").bind Tree.algorithm? = some h.algorithm
  keyId : member? Tree.text? ps "kid" = some h.keyId
  texts : ∀ name ∈ textNames, (member? Tree.text? ps name).isSome
  chain : (member? Tree.texts? ps "x5c").isSome
  key : (member? Tree.key? ps "jwk").isSome

def effect (p : String × Tree) (d : Draft) : Draft :=
  if p.1 = "alg" then { d with algorithm := p.2.algorithm? }
  else if p.1 = "kid" then { d with keyId := (p.2.nullable? Tree.text?).join }
  else d

theorem fits_alg {v : Tree} {a : Algorithm} (ha : v.algorithm? = some a) :
    Fits members effect ("alg", v) := by
  have hfind : members.find? (·.name == "alg") = some
      { name := "alg"
        read := fun d s => (readAlgorithm s).map fun p => ({ d with algorithm := some p.1 }, p.2)
        absent := fun _ => none } := rfl
  simp only [Fits, hfind]
  intro draft s hs rest hrest
  simp only [reads_algorithm? v a ha s hs rest hrest, effect, ha]
  rfl

theorem fits_effect {ps : List (String × Tree)} {h : TokenHeader} (hs : Stated ps h)
    (once : ∀ name, Once ps name) : ∀ q ∈ ps, Fits members effect q := by
  rintro ⟨name, v⟩ hq
  by_cases halg : name = "alg"
  · subst halg
    have ha := hs.algorithm
    rw [lookup_of_mem (once _) hq] at ha
    exact fits_alg ha
  by_cases hkid : name = "kid"
  · subst hkid
    exact fits_of_member? hs.keyId (once _) _ rfl passesBlanks_text reads_text?
      (fun v d => by simp [effect]) hq
  by_cases htexts : name ∈ textNames
  · obtain ⟨x, hx⟩ := Option.isSome_iff_exists.1 (hs.texts name htexts)
    have hv := nullable?_of_mem hx (once _) hq
    have hsame : ∀ d, effect (name, v) d = d := fun d => by simp [effect, halg, hkid]
    simp only [textNames, List.mem_cons, List.not_mem_nil, or_false] at htexts
    rcases htexts with rfl | rfl | rfl | rfl | rfl | rfl <;>
      exact fits_optional (fun d _ => d) rfl passesBlanks_text reads_text? hv hsame
  by_cases hchain : name = "x5c"
  · subst hchain
    obtain ⟨x, hx⟩ := Option.isSome_iff_exists.1 hs.chain
    have hv := nullable?_of_mem hx (once _) hq
    exact fits_optional (fun d _ => d) rfl (passesBlanks_list _) reads_texts? hv
      fun d => by simp [effect]
  by_cases hkey : name = "jwk"
  · subst hkey
    obtain ⟨x, hx⟩ := Option.isSome_iff_exists.1 hs.key
    have hv := nullable?_of_mem hx (once _) hq
    exact fits_optional (fun d _ => d) rfl passesBlanks_key reads_key? hv
      fun d => by simp [effect]
  have hunknown : members.find? (·.name == name) = none := by
    simp only [textNames, List.mem_cons, List.not_mem_nil, or_false, not_or] at htexts
    obtain ⟨htyp, hcty, hjku, hx5u, hx5t, hdigest⟩ := htexts
    simp [members, optionalMember, checkedMember, Ne.symm halg, Ne.symm hkid, Ne.symm hchain,
      Ne.symm hkey, Ne.symm htyp, Ne.symm hcty, Ne.symm hjku, Ne.symm hx5u, Ne.symm hx5t,
      Ne.symm hdigest]
  simp only [Fits, hunknown]
  intro draft
  simp [effect, halg, hkid]

theorem finish_foldl_effect {ps : List (String × Tree)} {h : TokenHeader} (hs : Stated ps h)
    (once : ∀ name, Once ps name) : finish (ps.foldl (fun d q => effect q d) {}) = .ok h := by
  have halgorithm := foldl_lookup effect Draft.algorithm "alg" (f := Tree.algorithm?)
    (fun v d => by simp [effect])
    (fun p d hp => by unfold effect; rw [if_neg hp]; split <;> rfl) (once _) {}
  have hkeyId := foldl_member? hs.keyId (once _) effect Draft.keyId (d := {})
    (fun v d => by simp [effect]) (fun p d hp => by unfold effect; rw [if_neg hp]; split <;> rfl) rfl
  have hstated : ((ps.lookup "alg").map Tree.algorithm?).getD none = some h.algorithm := by
    rw [← hs.algorithm]
    cases ps.lookup "alg" <;> rfl
  simp only [finish, halgorithm.trans hstated, hkeyId]

theorem ofDocument_writes {ps : List (String × Tree)} {h : TokenHeader} (hs : Stated ps h)
    (hnames : (ps.map (·.1)).Nodup) {s w : Bytes} (hw : Writes (.value (.object ps)) s)
    (hblank : Blank w) : ofDocument (s ++ w) = .ok h := by
  have once := once_of_nodup hnames
  exact document_of_reads (reads_record (fits_effect hs once) (fun name _ => once name)
    (finish_foldl_effect hs once)) hw hblank

end TokenHeader
end TenantGate
