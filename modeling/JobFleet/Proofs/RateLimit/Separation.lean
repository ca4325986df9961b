import JobFleet.Proofs.Net.Address
import JobFleet.Proofs.Number.Hex
import JobFleet.RateLimit.Key

/-!
# Keys tell attempts apart

A key is taken apart from both ends. Its scope has no colon and ends at the first one; the digest
at its end has a fixed length; what is left between them is the text of an address, in which
colons may stand, or the word for an unknown client, which no address prints. So two keys are
equal exactly if scopes, digests and clients agree, and a key is hardly longer than its scope.
-/

namespace JobFleet.RateLimitKey

/-- A client text that writes an address, blanks around it aside. -/
def Writes (client : Option String) (a : Net.Address) : Prop :=
  ∃ s, client = some s ∧ Net.Address.read? (Text.trim s) = some a

/-- What writes an address, by what is read of it. -/
theorem writes_iff {client : Option String} {a : Net.Address} :
    Writes client a ↔ clientAddress? client = some a :=
  Option.bind_eq_some_iff.symm

/-- Two client texts that keys do not tell apart: they write one address, or neither writes any. -/
def SameClient (client client' : Option String) : Prop :=
  (∃ a, Writes client a ∧ Writes client' a) ∨ (∀ a, ¬ Writes client a ∧ ¬ Writes client' a)

/-- Two texts are of one client where the same is read of them. -/
theorem sameClient_iff {client client' : Option String} :
    SameClient client client' ↔ clientAddress? client = clientAddress? client' := by
  simp only [SameClient, writes_iff]
  constructor
  · rintro (⟨a, ha, ha'⟩ | hnone)
    · rw [ha, ha']
    · rw [Option.eq_none_iff_forall_not_mem.mpr fun a => (hnone a).1,
        Option.eq_none_iff_forall_not_mem.mpr fun a => (hnone a).2]
  · intro h
    rw [← h]
    cases clientAddress? client with
    | none => exact .inr fun a => ⟨nofun, nofun⟩
    | some a => exact .inl ⟨a, rfl, rfl⟩

/-! ## The middle part -/

/-- No address prints the word for an unknown client. -/
theorem chars_ne_unknownClient (a : Net.Address) (digest : List Char) :
    a.chars ≠ unknownClient digest := by
  intro h
  have hread := Net.readAddress_chars a
  rw [h] at hread
  cases hread

/-- Beside one digest, clients have equal middle parts exactly if keys do not tell them apart. -/
theorem clientPart_inj {client client' : Option String} {digest : List Char} :
    clientPart client digest = clientPart client' digest ↔
      clientAddress? client = clientAddress? client' := by
  constructor
  · intro h
    unfold clientPart at h
    split at h
    · rename_i a ha
      split at h
      · rename_i b hb
        rw [ha, hb, Net.Address.chars_inj h]
      · exact absurd h (chars_ne_unknownClient a digest)
    · rename_i hnone
      split at h
      · rename_i b hb
        exact absurd h.symm (chars_ne_unknownClient b digest)
      · rename_i hnone'
        rw [hnone, hnone']
  · intro h
    rw [clientPart, clientPart, h]

/-- The client's part of a key has thirty-nine characters at the most. -/
theorem length_clientPart_le (client : Option String) (digest : List Char) :
    (clientPart client digest).length ≤ 39 := by
  unfold clientPart
  split
  · rename_i a _
    exact a.length_chars_le
  · have hword : "unknown-ip-".toList.length = 11 := by decide
    have hhead := List.length_take_le 8 digest
    unfold unknownClient
    rw [List.length_append, hword]
    omega

/-! ## Whole keys -/

/-- A scope is not empty and has no colon. -/
theorem validScope_iff {scope : String} :
    validScope scope = true ↔ scope ≠ "" ∧ ':' ∉ scope.toList := by
  simp [validScope, ← String.toList_eq_nil_iff]

/-- A key is derived from an identity and a scope without a colon, and only from them. -/
theorem derive_eq_ok_iff {scope identity : String} {client : Option String} {k : RateLimitKey} :
    derive scope identity client = .ok k ↔
      identity ≠ "" ∧ scope ≠ "" ∧ ':' ∉ scope.toList ∧
        k = ⟨scope.toList ++ ':' :: (clientPart client (Digest.textDigest identity) ++
          ':' :: Digest.textDigest identity)⟩ := by
  have hempty : identity.toList.isEmpty = true ↔ identity = "" := by
    rw [List.isEmpty_iff, String.toList_eq_nil_iff]
  unfold derive
  by_cases hidentity : identity = ""
  · simp [hidentity]
  · by_cases hscope : validScope scope = true
    · obtain ⟨hsome, hcolon⟩ := validScope_iff.mp hscope
      simp [mt hempty.mp hidentity, hscope, hidentity, hsome, hcolon, eq_comm]
    · have hnot := mt validScope_iff.mpr hscope
      rw [if_neg (mt hempty.mp hidentity), if_neg hscope]
      constructor
      · rintro ⟨⟩
      · rintro ⟨-, hsome, hcolon, -⟩
        exact absurd ⟨hsome, hcolon⟩ hnot

/-- What stands before the first colon is read back. -/
theorem scope_mk {scope : String} (h : ':' ∉ scope.toList) (rest : List Char) :
    (⟨scope.toList ++ ':' :: rest⟩ : RateLimitKey).scope = scope := by
  have hall : ∀ c ∈ scope.toList, (decide (c ≠ ':')) = true := fun c hc =>
    decide_eq_true fun he => h (he ▸ hc)
  have hcolon : (':' :: rest).takeWhile (· ≠ ':') = [] := rfl
  rw [RateLimitKey.scope, List.takeWhile_append_of_pos hall, hcolon, List.append_nil,
    String.ofList_toList]

/-- Behind equal scopes, the middle parts and the digests of two keys are equal. -/
theorem parts_inj {scope : String} {part part' digest digest' : List Char}
    (hlength : digest.length = digest'.length)
    (h : scope.toList ++ ':' :: (part ++ ':' :: digest) =
      scope.toList ++ ':' :: (part' ++ ':' :: digest')) :
    part = part' ∧ digest = digest' := by
  have hrest := (List.cons.inj (List.append_cancel_left h)).2
  obtain ⟨hpart, hdigest⟩ := List.append_inj' hrest (congrArg (· + 1) hlength)
  exact ⟨hpart, (List.cons.inj hdigest).2⟩

/-- A key is derived exactly from an identity and a scope without a colon. It has its scope at the
front, and at most 105 characters more; and it is the key of another attempt exactly if the scopes
are equal, the identities have one digest, and the clients write one address or both write none. -/
theorem derive_separates (scope identity : String) (client : Option String) :
    ((∃ k, derive scope identity client = .ok k) ↔
      identity ≠ "" ∧ scope ≠ "" ∧ ':' ∉ scope.toList) ∧
    ∀ k, derive scope identity client = .ok k →
      k.scope = scope ∧ k.text.length ≤ scope.length + 105 ∧
      ∀ scope' identity' client' k', derive scope' identity' client' = .ok k' →
        (k = k' ↔ scope = scope' ∧
          Digest.sha256 identity.toUTF8.toList = Digest.sha256 identity'.toUTF8.toList ∧
          SameClient client client') := by
  refine ⟨?_, fun k hk => ?_⟩
  · simp only [derive_eq_ok_iff, exists_and_left, exists_eq, and_true]
  obtain ⟨-, -, hcolon, rfl⟩ := derive_eq_ok_iff.mp hk
  refine ⟨scope_mk hcolon _, ?_, fun scope' identity' client' k' hk' => ?_⟩
  · have hpart := length_clientPart_le client (Digest.textDigest identity)
    have hdigest := Digest.length_textDigest identity
    simp only [text, String.length_ofList, List.length_append, List.length_cons,
      String.length_toList]
    omega
  obtain ⟨-, -, hcolon', rfl⟩ := derive_eq_ok_iff.mp hk'
  rw [sameClient_iff]
  constructor
  · intro h
    have hscope : scope = scope' := by
      rw [← scope_mk hcolon, h, scope_mk hcolon']
    subst hscope
    have hchars := congrArg RateLimitKey.chars h
    obtain ⟨hpart, hdigest⟩ := parts_inj
      ((Digest.length_textDigest identity).trans (Digest.length_textDigest identity').symm) hchars
    rw [hdigest] at hpart
    exact ⟨rfl, Digest.State.hex_inj hdigest, clientPart_inj.mp hpart⟩
  · rintro ⟨rfl, hdigest, hclient⟩
    have htext : Digest.textDigest identity = Digest.textDigest identity' :=
      congrArg Digest.State.hex hdigest
    rw [htext, clientPart_inj.mpr hclient]

/-- The loopback address in two spellings, one of them between blanks, has one key. -/
theorem derive_loopback : ∃ k k', derive "login" "alice" (some "::1") = .ok k ∧
    derive "login" "alice" (some " 0:0:0:0:0:0:0:1 ") = .ok k' ∧ k = k' ∧ k.scope = "login" ∧
    k.text.length ≤ 110 := by
  have hvalid : "alice" ≠ "" ∧ "login" ≠ "" ∧ ':' ∉ "login".toList := by decide
  obtain ⟨k, hk⟩ := (derive_separates "login" "alice" (some "::1")).1.mpr hvalid
  obtain ⟨k', hk'⟩ := (derive_separates "login" "alice" (some " 0:0:0:0:0:0:0:1 ")).1.mpr hvalid
  obtain ⟨hscope, hlength, hsame⟩ := (derive_separates "login" "alice" (some "::1")).2 k hk
  have hclient : SameClient (some "::1") (some " 0:0:0:0:0:0:0:1 ") :=
    sameClient_iff.mpr (by decide)
  exact ⟨k, k', hk, hk', (hsame _ _ _ k' hk').mpr ⟨rfl, rfl, hclient⟩, hscope, hlength⟩

end JobFleet.RateLimitKey
