import Synthia.Execution.Idempotency
import Synthia.Integrations.Execution

/-!
# What the keys tell apart

An identifier is written in thirty-six characters, digits and hyphens, so a text
in which identifiers are joined by anything else can be taken apart again, and a
hash of it tells the identifiers apart as far as the hash tells texts apart.

The three derivations do not agree, and two of them say that they are not meant
to: the Integrations Service puts a namespace into what it hashes so that its key
cannot meet another component's. `keys_injective_and_apart` is what that comes
to.
-/

namespace Synthia

open Text

/-! ## The text of an identifier -/

theorem Uuid.toText_eq (uuid : Uuid) :
    uuid.toText = (hexDigits 32 uuid.toNat).take 8 ++ [0x2D] ++
      ((hexDigits 32 uuid.toNat).drop 8).take 4 ++ [0x2D] ++
      ((hexDigits 32 uuid.toNat).drop 12).take 4 ++ [0x2D] ++
      ((hexDigits 32 uuid.toNat).drop 16).take 4 ++ [0x2D] ++
      (hexDigits 32 uuid.toNat).drop 20 := rfl

@[simp] theorem Uuid.length_toText (uuid : Uuid) : uuid.toText.length = 36 := by
  rw [Uuid.toText_eq]
  simp

/-- The groups of an identifier's digits are all of them. -/
theorem Uuid.groups_append (digits : List CodePoint) :
    digits.take 8 ++ (digits.drop 8).take 4 ++ (digits.drop 12).take 4 ++
      (digits.drop 16).take 4 ++ digits.drop 20 = digits := by
  have hjoin : ∀ start size : Nat,
      (digits.drop start).take size ++ digits.drop (start + size) = digits.drop start := by
    intro start size
    rw [← List.drop_drop, List.take_append_drop]
  rw [List.append_assoc, hjoin 16 4, List.append_assoc, hjoin 12 4, List.append_assoc,
    hjoin 8 4, List.take_append_drop]

/-- Without its hyphens an identifier's text is its digits. -/
theorem Uuid.filter_toText (uuid : Uuid) :
    uuid.toText.filter (fun c => c != 0x2D) = hexDigits 32 uuid.toNat := by
  have hkeep : ∀ part : List CodePoint, (∀ c ∈ part, isHex c = true) →
      part.filter (fun c => c != 0x2D) = part := by
    intro part hpart
    rw [List.filter_eq_self]
    intro c hc
    rw [bne_iff_ne]
    intro hyphen
    have hhex := hpart c hc
    rw [hyphen] at hhex
    cases hhex
  have hhyphen : [(0x2D : CodePoint)].filter (fun c => c != 0x2D) = [] := rfl
  have hdigits : ∀ c ∈ hexDigits 32 uuid.toNat, isHex c = true :=
    fun c hc => isHex_of_mem_hexDigits hc
  rw [Uuid.toText_eq]
  simp only [List.filter_append, hhyphen, List.append_nil]
  rw [hkeep _ fun c hc => hdigits c (List.mem_of_mem_take hc),
    hkeep _ fun c hc => hdigits c (List.mem_of_mem_drop (List.mem_of_mem_take hc)),
    hkeep _ fun c hc => hdigits c (List.mem_of_mem_drop (List.mem_of_mem_take hc)),
    hkeep _ fun c hc => hdigits c (List.mem_of_mem_drop (List.mem_of_mem_take hc)),
    hkeep _ fun c hc => hdigits c (List.mem_of_mem_drop hc)]
  exact Uuid.groups_append _

theorem Uuid.mem_toText {uuid : Uuid} {c : CodePoint} (h : c ∈ uuid.toText) :
    isHex c = true ∨ c = 0x2D := by
  rw [Uuid.toText_eq] at h
  simp only [List.mem_append, List.mem_singleton] at h
  rcases h with ((((((((h | h) | h) | h) | h) | h) | h) | h) | h)
  · exact Or.inl (isHex_of_mem_hexDigits (List.mem_of_mem_take h))
  · exact Or.inr h
  · exact Or.inl (isHex_of_mem_hexDigits (List.mem_of_mem_drop (List.mem_of_mem_take h)))
  · exact Or.inr h
  · exact Or.inl (isHex_of_mem_hexDigits (List.mem_of_mem_drop (List.mem_of_mem_take h)))
  · exact Or.inr h
  · exact Or.inl (isHex_of_mem_hexDigits (List.mem_of_mem_drop (List.mem_of_mem_take h)))
  · exact Or.inr h
  · exact Or.inl (isHex_of_mem_hexDigits (List.mem_of_mem_drop h))

/-- Digits and hyphens lie below the letters past `f`. -/
theorem Uuid.val_toText {uuid : Uuid} {c : CodePoint} (h : c ∈ uuid.toText) :
    c.val < 0x67 := by
  rcases Uuid.mem_toText h with hhex | hhyphen
  · unfold isHex at hhex
    simp only [Bool.or_eq_true, Bool.and_eq_true, decide_eq_true_eq] at hhex
    omega
  · rw [hhyphen]
    decide

theorem Uuid.notMem_toText (uuid : Uuid) {c : CodePoint} (h : 0x67 ≤ c.val) :
    c ∉ uuid.toText := by
  intro hmem
  have hval := Uuid.val_toText hmem
  omega

theorem Uuid.toText_injective : Function.Injective Uuid.toText := by
  intro a b h
  apply BitVec.eq_of_toNat_eq
  have hdigits : hexDigits 32 a.toNat = hexDigits 32 b.toNat := by
    rw [← Uuid.filter_toText, ← Uuid.filter_toText, h]
  have ha := a.isLt
  have hb := b.isLt
  exact hexDigits_inj (by omega) (by omega) hdigits

/-- Identifiers in front of anything are told apart. -/
theorem Uuid.toText_append {a b : Uuid} {rest other : List CodePoint}
    (h : a.toText ++ rest = b.toText ++ other) : a = b ∧ rest = other := by
  obtain ⟨htext, hrest⟩ := List.append_inj h (by rw [Uuid.length_toText, Uuid.length_toText])
  exact ⟨Uuid.toText_injective htext, hrest⟩

/-! ## The three derivations -/

/-- No integer's decimal text has an `@` in it. -/
theorem at_not_mem_toString (n : Int) : '@' ∉ (toString n).toList := by
  cases n with
  | ofNat n =>
      rw [toList_toString_ofNat]
      exact not_mem_toDigits (by decide) n
  | negSucc n =>
      rw [toList_toString_negSucc, List.mem_cons]
      rintro (hminus | hdigit)
      · cases hminus
      · exact not_mem_toDigits (by decide) (n + 1) hdigit

/-- The catalogue identifier may contain an `@`; the version may not. -/
theorem OperationIdentity.text_injective : Function.Injective OperationIdentity.text := by
  intro a b h
  have htext : ∀ identity : OperationIdentity, identity.text.toList =
      identity.catalogueId.toList ++ '@' :: (toString identity.version).toList := by
    intro identity
    unfold OperationIdentity.text
    rw [String.toList_append, String.toList_append, List.append_assoc]
    rfl
  have hlist := congrArg String.toList h
  rw [htext, htext] at hlist
  obtain ⟨hcatalogue, hversion⟩ := append_separator_inj (at_not_mem_toString a.version)
    (at_not_mem_toString b.version) hlist
  have hsame := toString_int_injective (String.toList_inj.mp hversion)
  obtain ⟨catalogueId, version⟩ := a
  dsimp only at hcatalogue hsame
  rw [String.toList_inj.mp hcatalogue, hsame]

theorem IdempotencyKey.text_injective : Function.Injective IdempotencyKey.text := by
  intro a b h
  obtain ⟨hwork, hrest⟩ := Uuid.toText_append h
  injection hrest with _ hidentity
  obtain ⟨⟨work⟩, identity⟩ := a
  dsimp only at hwork hidentity
  rw [hwork, OperationIdentity.text_injective (ofString_injective hidentity)]

section Derivations

variable {sha256 : List CodePoint → List CodePoint} (hsha : Digest sha256)
include hsha

theorem deriveKey_inj {tenant other : TenantContext} {workItemId otherWork : WorkItemId}
    {operationId otherOperation : OperationId}
    (h : deriveKey sha256 tenant workItemId operationId =
      deriveKey sha256 other otherWork otherOperation) :
    tenant.tenantId = other.tenantId ∧ workItemId = otherWork ∧
      operationId = otherOperation := by
  have hhash := List.append_cancel_left h
  injection hhash with _ hhash
  obtain ⟨htenant, hrest⟩ := Uuid.toText_append (hsha.injective hhash)
  injection hrest with _ hrest
  obtain ⟨hwork, hrest⟩ := Uuid.toText_append hrest
  injection hrest with _ hoperation
  refine ⟨?_, ?_, ?_⟩
  · exact congrArg TenantId.mk htenant
  · exact congrArg WorkItemId.mk hwork
  · exact congrArg OperationId.mk (Uuid.toText_injective hoperation)

theorem Integrations.deriveKey_inj {tenantId otherTenant workItemId otherWork operationId
    otherOperation : Uuid}
    (h : Integrations.deriveKey sha256 tenantId workItemId operationId =
      Integrations.deriveKey sha256 otherTenant otherWork otherOperation) :
    tenantId = otherTenant ∧ workItemId = otherWork ∧ operationId = otherOperation := by
  have hjoined := hsha.injective h
  simp only [List.intercalate, List.intersperse, List.flatten_cons, List.flatten_nil,
    List.append_nil] at hjoined
  have hfields := List.append_cancel_left (List.append_cancel_left hjoined)
  obtain ⟨htenant, hrest⟩ := Uuid.toText_append hfields
  obtain ⟨hwork, hrest⟩ := Uuid.toText_append (List.append_cancel_left hrest)
  exact ⟨htenant, hwork, Uuid.toText_injective (List.append_cancel_left hrest)⟩

/-- The Integrations Service's keys are nothing but digits. -/
theorem Integrations.isHex_of_mem_deriveKey {tenantId workItemId operationId : Uuid}
    {c : CodePoint} (h : c ∈ Integrations.deriveKey sha256 tenantId workItemId operationId) :
    isHex c = true :=
  hsha.hex _ c h

/-- **What the keys tell apart.** Under a hash without collisions, RagCore's
derived keys and the Integrations Service's each tell organisations, work items
and operations apart, the graph's key tells work items and catalogue identities
apart, and the Integrations Service's key is neither of RagCore's, whatever the
two are derived from. -/
theorem keys_injective_and_apart :
    (∀ tenant other workItemId otherWork operationId otherOperation,
        deriveKey sha256 tenant workItemId operationId =
            deriveKey sha256 other otherWork otherOperation →
          tenant.tenantId = other.tenantId ∧ workItemId = otherWork ∧
            operationId = otherOperation) ∧
      (∀ tenantId otherTenant workItemId otherWork operationId otherOperation,
        Integrations.deriveKey sha256 tenantId workItemId operationId =
            Integrations.deriveKey sha256 otherTenant otherWork otherOperation →
          tenantId = otherTenant ∧ workItemId = otherWork ∧ operationId = otherOperation) ∧
      (∀ key other : IdempotencyKey, key.text = other.text → key = other) ∧
      ∀ tenantId workItemId operationId,
        (∀ tenant otherWork otherOperation,
          Integrations.deriveKey sha256 tenantId workItemId operationId ≠
            deriveKey sha256 tenant otherWork otherOperation) ∧
        ∀ key : IdempotencyKey,
          Integrations.deriveKey sha256 tenantId workItemId operationId ≠ key.text := by
  refine ⟨fun _ _ _ _ _ _ h => deriveKey_inj hsha h,
    fun _ _ _ _ _ _ h => Integrations.deriveKey_inj hsha h,
    fun _ _ h => IdempotencyKey.text_injective h, ?_⟩
  intro tenantId workItemId operationId
  -- a colon stands in each of RagCore's keys, and none in a digest
  have hcolon : (0x3A : CodePoint) ∉
      Integrations.deriveKey sha256 tenantId workItemId operationId :=
    fun hmem => nomatch Integrations.isHex_of_mem_deriveKey hsha hmem
  refine ⟨?_, ?_⟩
  · intro tenant otherWork otherOperation h
    rw [h] at hcolon
    exact hcolon (List.mem_append.mpr (Or.inr List.mem_cons_self))
  · intro key h
    rw [h] at hcolon
    exact hcolon (List.mem_append.mpr (Or.inr List.mem_cons_self))

end Derivations

/-! ### One work item, two operations -/

/-- The digests of the four texts derived below. -/
def sampleSha256 : List CodePoint → List CodePoint := tabulated
  [(ofString ("00000000-0000-0000-0000-000000000001:00000000-0000-0000-0000-000000000002:" ++
      "00000000-0000-0000-0000-000000000003"),
    ofString "3c7440775da616025f73c0255ccc00e3fce96ac133a38e18cab8dcbed155d297"),
   ([0x1F].intercalate [Integrations.keyNamespace, Uuid.toText 1, Uuid.toText 2, Uuid.toText 3],
    ofString "3bab3c5f15f9cb8afab069a3862e67a2e68987d42240a3dfb38d1bd2ea574482"),
   (ofString ("00000000-0000-0000-0000-000000000001:00000000-0000-0000-0000-000000000002:" ++
      "00000000-0000-0000-0000-000000000004"),
    ofString "5241215f0d29bf9a44927bf0a379daeb51e6960c0f1afa66dbd01006278494f3"),
   ([0x1F].intercalate [Integrations.keyNamespace, Uuid.toText 1, Uuid.toText 2, Uuid.toText 4],
    ofString "d9b3bb51386d49293e07b55fd7c0e539a311ebe80866f0150c870e33c4de64da")]

theorem digest_sampleSha256 : Digest sampleSha256 :=
  digest_tabulated (by decide +kernel) (by decide +kernel) (by decide +kernel)

def sampleTenant : TenantContext := ⟨⟨1⟩, ⟨1⟩, .active, .workItem⟩

theorem two_operations_two_keys :
    deriveKey sampleSha256 sampleTenant ⟨2⟩ ⟨3⟩ =
        ofString ("synthia-v1:" ++
          "3c7440775da616025f73c0255ccc00e3fce96ac133a38e18cab8dcbed155d297") ∧
      deriveKey sampleSha256 sampleTenant ⟨2⟩ ⟨3⟩ ≠
        deriveKey sampleSha256 sampleTenant ⟨2⟩ ⟨4⟩ := by
  refine ⟨by decide +kernel, ?_⟩
  intro h
  have hoperation := ((keys_injective_and_apart digest_sampleSha256).1 _ _ _ _ _ _ h).2.2
  exact absurd hoperation (by decide)

/-- One operation, three keys. -/
theorem three_paths_three_keys :
    ¬ (IdempotencyKey.text ⟨⟨2⟩, ⟨"unlock_account", 1⟩⟩ =
          deriveKey sampleSha256 sampleTenant ⟨2⟩ ⟨3⟩ ∧
        deriveKey sampleSha256 sampleTenant ⟨2⟩ ⟨3⟩ =
          Integrations.deriveKey sampleSha256 1 2 3) ∧
      deriveKey sampleSha256 sampleTenant ⟨2⟩ ⟨3⟩ ≠
        Integrations.deriveKey sampleSha256 1 2 3 := by
  decide +kernel

end Synthia
