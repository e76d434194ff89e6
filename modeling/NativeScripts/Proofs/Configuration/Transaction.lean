import NativeScripts.Configuration
import NativeScripts.Proofs.Hex
import NativeScripts.Proofs.Pointwise
import NativeScripts.Proofs.Signers

/-! The transaction that a configuration describes. Its signers are a set: the order of the
entries, their number and the case of their letters leave no trace. The first entry that is
no hash is the one to blame. -/

namespace NativeScripts

open List (Forall₂)

namespace Configuration

variable {config config' : Configuration} {s : String} {key : KeyHash}

theorem signerOf_eq_ok : signerOf s = .ok key ↔ Hash.ofHex s = .ok key := by
  rw [signerOf]
  cases (Hash.ofHex s : Except HashFault KeyHash) <;> simp

theorem signerOf_eq_error {fault : ConfigFault} :
    signerOf s = .error fault ↔
      ∃ cause, (Hash.ofHex s : Except HashFault KeyHash) = .error cause ∧
        fault = .badSigner s cause := by
  rw [signerOf]
  cases (Hash.ofHex s : Except HashFault KeyHash) <;> simp [eq_comm]

/-- One of the entries spells the key in hexadecimal digits, of whichever case. -/
def Names (config : Configuration) (key : KeyHash) : Prop :=
  ∃ s ∈ config.signers, Hex.Spelled s.toList key.bytes

theorem toTransaction_eq_ok {c : Transaction} :
    config.toTransaction = .ok c ↔
      ∃ keys, Forall₂ (fun s key => signerOf s = .ok key) config.signers keys ∧
        ⟨.ofList keys, config.validity⟩ = c := by
  simp only [toTransaction, map_eq_ok, readEach_eq_ok_iff]

/-- The keys that are read from the entries are those that the entries name. -/
theorem mem_keys_iff {keys : List KeyHash}
    (h : Forall₂ (fun s key => signerOf s = .ok key) config.signers keys) :
    key ∈ keys ↔ config.Names key := by
  constructor
  · intro hk
    obtain ⟨s, hs, hread⟩ := exists_of_forall₂ h.flip hk
    exact ⟨s, hs, Hash.ofHex_eq_ok.mp (signerOf_eq_ok.mp hread)⟩
  · intro hn
    obtain ⟨s, hs, hspelled⟩ := hn
    obtain ⟨key', hk, hread⟩ := exists_of_forall₂ h hs
    have hsame : signerOf s = .ok key := signerOf_eq_ok.mpr (Hash.ofHex_eq_ok.mpr hspelled)
    rw [hread, Except.ok.injEq] at hsame
    rwa [← hsame]

theorem exists_toTransaction_iff :
    (∃ c, config.toTransaction = .ok c) ↔
      ∀ s ∈ config.signers, ∃ key : KeyHash, Hash.ofHex s = .ok key := by
  have hmap : (∃ c, config.toTransaction = .ok c) ↔
      ∃ keys, readEach signerOf config.signers = .ok keys := by
    simp only [toTransaction, map_eq_ok]
    grind
  rw [hmap, readEach_isOk]
  simp only [signerOf_eq_ok]

theorem mem_signers {c : Transaction} (h : config.toTransaction = .ok c) :
    key ∈ c.signers.keys ↔ config.Names key := by
  obtain ⟨keys, hkeys, rfl⟩ := toTransaction_eq_ok.mp h
  rw [Signers.mem_ofList, mem_keys_iff hkeys]

theorem validity_eq {c : Transaction} (h : config.toTransaction = .ok c) :
    c.validity = config.validity := by
  obtain ⟨keys, -, rfl⟩ := toTransaction_eq_ok.mp h
  rfl

/-- The entries are the same texts but for the case of letters, their order and how often
each of them stands there. -/
def SameEntries (config config' : Configuration) : Prop :=
  ∀ t, (∃ s ∈ config.signers, s.toLower = t) ↔ ∃ s ∈ config'.signers, s.toLower = t

theorem SameEntries.symm (h : config.SameEntries config') : config'.SameEntries config :=
  fun t => (h t).symm

theorem spelled_of_toLower_eq {s t : String} {bs : Bytes} (h : s.toLower = t.toLower)
    (hs : Hex.Spelled s.toList bs) : Hex.Spelled t.toList bs := by
  have hlower : s.toList.map Char.toLower = t.toList.map Char.toLower := by
    rw [← String.toList_map, ← String.toList_map]
    exact congrArg String.toList h
  rw [← Hex.spelled_toLower_iff, hlower] at hs
  exact Hex.spelled_toLower_iff.mp hs

theorem SameEntries.names (h : config.SameEntries config') (hn : config.Names key) :
    config'.Names key := by
  obtain ⟨s, hs, hspelled⟩ := hn
  obtain ⟨t, ht, hlower⟩ := (h _).mp ⟨s, hs, rfl⟩
  exact ⟨t, ht, spelled_of_toLower_eq hlower.symm hspelled⟩

theorem SameEntries.isOk (h : config.SameEntries config')
    (hok : ∃ c, config.toTransaction = .ok c) : ∃ c, config'.toTransaction = .ok c := by
  have hvalid {config : Configuration} : (∃ c, config.toTransaction = .ok c) ↔
      ∀ s ∈ config.signers, ∃ key : KeyHash, Hex.Spelled s.toList key.bytes := by
    simp only [exists_toTransaction_iff, Hash.ofHex_eq_ok]
  rw [hvalid] at hok ⊢
  intro t ht
  obtain ⟨s, hs, hlower⟩ := (h _).mpr ⟨t, ht, rfl⟩
  obtain ⟨key, hspelled⟩ := hok s hs
  exact ⟨key, spelled_of_toLower_eq hlower hspelled⟩

/-- What is to be known of the transaction that a configuration describes. -/
structure Describes (config : Configuration) (c : Transaction) : Prop where
  signedBy_iff : ∀ key, c.answer (.signedBy key) = true ↔ config.Names key
  of_same : ∀ config', config'.validity = config.validity → config.SameEntries config' →
    config'.toTransaction = .ok c
  of_sign : ∀ keys : List KeyHash, (∀ key, key ∈ keys ↔ config.Names key) →
    (keys.foldl Transaction.sign .empty).during config.validity = c
  validity : c.validity = config.validity

theorem eq_of_signers {c c' : Transaction} (hs : ∀ k, k ∈ c.signers.keys ↔ k ∈ c'.signers.keys)
    (hv : c.validity = c'.validity) : c = c' := by
  have hsigners : c.signers = c'.signers := Signers.ext_of_mem hs
  cases c
  cases c'
  cases hsigners
  cases hv
  rfl

theorem describes_of_toTransaction {c : Transaction} (h : config.toTransaction = .ok c) :
    config.Describes c := by
  refine ⟨fun key => ?_, fun config' hv hsame => ?_, fun keys hkeys => ?_, validity_eq h⟩
  · rw [Transaction.answer_signedBy, mem_signers h]
  · obtain ⟨c', h'⟩ := hsame.isOk ⟨c, h⟩
    rw [h', Except.ok.injEq]
    apply eq_of_signers
    · intro key
      rw [mem_signers h, mem_signers h']
      exact ⟨hsame.symm.names, hsame.names⟩
    · rw [validity_eq h, validity_eq h', hv]
  · apply eq_of_signers
    · intro key
      rw [mem_signers h, Transaction.foldl_sign, ← hkeys]
      exact Signers.mem_ofList
    · exact (validity_eq h).symm

/-- The fault is that of the first entry which is no hash. -/
inductive Blames (config : Configuration) : ConfigFault → Prop where
  | mk {before after : List String} {s : String} {cause : HashFault}
      (split : config.signers = before ++ s :: after)
      (valid : ∀ b ∈ before, ∃ key : KeyHash, Hash.ofHex b = .ok key)
      (unfit : (Hash.ofHex s : Except HashFault KeyHash) = .error cause) :
      Blames config (.badSigner s cause)

theorem toTransaction_eq_error {fault : ConfigFault} :
    config.toTransaction = .error fault ↔ config.Blames fault := by
  rw [toTransaction, map_eq_error, readEach_eq_error_iff]
  simp only [signerOf_eq_ok, signerOf_eq_error]
  constructor
  · intro h
    obtain ⟨before, s, after, split, valid, cause, unfit, rfl⟩ := h
    exact .mk split valid unfit
  · intro h
    obtain ⟨split, valid, unfit⟩ := h
    exact ⟨_, _, _, split, valid, _, unfit, rfl⟩

theorem message_badSigner (s : String) (cause : HashFault) :
    (ScriptFault.config (.badSigner s cause)).message =
      "configuration error: invalid signer '" ++ s ++ "': " ++
        (ScriptFault.invalidHash cause).message := by
  have hsigner : "configuration error: invalid signer '" =
      "configuration error: " ++ "invalid signer '" := by decide
  have hhash : "': invalid hash: " = "': " ++ "invalid hash: " := by decide
  change "configuration error: " ++
      ("invalid signer '" ++ s ++ "': invalid hash: " ++ cause.message) =
    "configuration error: invalid signer '" ++ s ++ "': " ++ ("invalid hash: " ++ cause.message)
  rw [hhash, hsigner]
  simp only [String.append_assoc]

/-- A configuration whose signers are all hashes describes the set of them, within the bounds
that it gives, and any other blames its first signer that is none. -/
theorem configuration_describes_or_blames (config : Configuration) :
    ((∃ c, config.toTransaction = .ok c) ↔
      ∀ s ∈ config.signers, s.length = 56 ∧ ∀ d ∈ s.toList, Hex.IsDigit d) ∧
    (∀ c, config.toTransaction = .ok c → config.Describes c) ∧
    (∀ fault, config.toTransaction = .error fault ↔ config.Blames fault) ∧
    ∀ s cause, (ScriptFault.config (.badSigner s cause)).message =
      "configuration error: invalid signer '" ++ s ++ "': " ++
        (ScriptFault.invalidHash cause).message := by
  refine ⟨?_, fun _ => describes_of_toTransaction, fun _ => toTransaction_eq_error,
    message_badSigner⟩
  simp only [exists_toTransaction_iff, Hash.exists_ofHex_iff]

/-- Two signers. -/
def twoSigners : Configuration :=
  ⟨[(Hash.filled 0xab : KeyHash).toHex, (Hash.filled 7 : KeyHash).toHex], ⟨some 100, none⟩⟩

/-- The same two in another order, one of them twice and one in capitals. -/
def threeEntries : Configuration :=
  ⟨[(Hash.filled 7 : KeyHash).toHex, (Hash.filled 0xab : KeyHash).toHex.toUpper,
    (Hash.filled 7 : KeyHash).toHex], ⟨some 100, none⟩⟩

theorem two_signers_in_three_entries :
    (∃ c, twoSigners.toTransaction = .ok c ∧ threeEntries.toTransaction = .ok c ∧
      c.answer (.signedBy (.filled 7)) = true) ∧
    toTransaction ⟨[(Hash.filled 7 : KeyHash).toHex, "0a0B", "?"], .unbounded⟩ =
      .error (.badSigner "0a0B" (.wrongLength .key 2)) := by
  obtain ⟨hok, hdescribes, -⟩ := configuration_describes_or_blames twoSigners
  obtain ⟨-, -, hblames, -⟩ := configuration_describes_or_blames
    ⟨[(Hash.filled 7 : KeyHash).toHex, "0a0B", "?"], .unbounded⟩
  constructor
  · have hwritten : ∀ s ∈ twoSigners.signers, ∃ key : KeyHash, Hash.ofHex s = .ok key := by
      simp [twoSigners, Hash.ofHex_toHex]
    obtain ⟨c, hc⟩ := hok.mpr fun s hs => Hash.exists_ofHex_iff.mp (hwritten s hs)
    have hd := hdescribes c hc
    have hcapitals : (Hash.filled 0xab : KeyHash).toHex.toUpper.toLower =
        (Hash.filled 0xab : KeyHash).toHex.toLower := by
      apply String.toList_injective
      delta String.toLower String.toUpper
      simp only [String.toList_map, Hash.toHex, Hex.encode, String.toList_ofList]
      decide
    have hsame : twoSigners.SameEntries threeEntries := by
      intro t
      simp [twoSigners, threeEntries, hcapitals, or_comm]
    refine ⟨c, hc, hd.of_same _ rfl hsame, (hd.signedBy_iff _).mpr ?_⟩
    have hentry : (Hash.filled 7 : KeyHash).toHex ∈ twoSigners.signers := by simp [twoSigners]
    exact ⟨_, hentry, Hex.spelled_encode _⟩
  · have hvalid :
        ∀ b ∈ [(Hash.filled 7 : KeyHash).toHex], ∃ key : KeyHash, Hash.ofHex b = .ok key :=
      List.forall_mem_singleton.mpr ⟨_, Hash.ofHex_toHex _⟩
    exact (hblames _).mpr (.mk rfl hvalid rfl)

end Configuration

end NativeScripts
