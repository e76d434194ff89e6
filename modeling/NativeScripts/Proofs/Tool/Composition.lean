import NativeScripts.Proofs.Script.HexText
import NativeScripts.Proofs.Script.JsonText
import NativeScripts.Tool.Run

/-! The commands one after another. What one of them prints the others take, and it stands
for the script that they all began with. -/

namespace NativeScripts.Tool

/-- The bytes found at the path are those of the text. -/
def Sources.Holds (sources : Sources) (path text : String) : Prop :=
  (if isInputMark path then sources.input else sources.file path) = .ok (Bytes.ofText text)

/-- The command succeeds and prints the text. -/
def Command.Prints (command : Command) (sources : Sources) (text : String) : Prop :=
  (command.run sources).ending = .printed text 0

/-- The command prints `out` wherever it finds the text, with an end of line or without. -/
def PrintsOn (command : String → Command) (text out : String) : Prop :=
  ∀ sources path, sources.Holds path text ∨ sources.Holds path (text ++ "\n") →
    (command path).Prints sources out

/-- Digits, a description and a hash that the commands make of one another. -/
structure Agree (digits description hash : String) : Prop where
  encodes : PrintsOn .encode description digits
  decodes : ∀ sources, (Command.decode digits).Prints sources description
  hashes : PrintsOn .hash description hash
  digested : ∃ bs, Hex.decode digits = .ok bs ∧ hash = Hex.encode (Blake2b.digest (0 :: bs))

variable {sources : Sources} {path text out : String} {s : NativeScript}

theorem Outcome.quiet_eq_printed {result : Except ScriptFault String} :
    (Outcome.quiet result).ending = .printed out 0 ↔ result = .ok out := by
  cases result <;> simp [quiet]

theorem Sources.Holds.script_eq (h : sources.Holds path text) :
    sources.script path = NativeScript.acceptText text := by
  have htext : textOf (if isInputMark path then sources.input else sources.file path) =
      .ok text := by
    rw [h, textOf]
    simp only [Bytes.toText?_ofText]
  simp only [script, htext]

theorem Sources.Holds.script_eq_ok (h : sources.Holds path text) :
    sources.script path = .ok s ↔ NativeScript.parse text = .ok s := by
  rw [h.script_eq, NativeScript.acceptText, mapError_eq_ok]

namespace Command

theorem encode_prints (h : sources.Holds path text) :
    (encode path).Prints sources out ↔
      ∃ s, NativeScript.parse text = .ok s ∧ Hex.encode s.encode = out := by
  simp only [Prints, run, Outcome.quiet_eq_printed, map_eq_ok, h.script_eq_ok]

theorem hash_prints (h : sources.Holds path text) :
    (hash path).Prints sources out ↔
      ∃ s, NativeScript.parse text = .ok s ∧ s.hash.toHex = out := by
  simp only [Prints, run, Outcome.quiet_eq_printed, map_eq_ok, h.script_eq_ok]

theorem decode_prints {digits : String} :
    (decode digits).Prints sources out ↔
      ∃ s, NativeScript.decodeHex digits = .ok s ∧ s.toJson.pretty = out := by
  rw [Prints, run, NativeScript.acceptDigits]
  cases NativeScript.decodeHex digits <;> simp

end Command

theorem parse_of_holds
    (h : sources.Holds path s.toJson.pretty ∨ sources.Holds path (s.toJson.pretty ++ "\n")) :
    ∃ text, sources.Holds path text ∧ NativeScript.parse text = .ok s := by
  rcases h with h | h
  · have hp := s.parse_pretty Json.blanks_nil
    rw [String.ofList_nil, String.append_empty] at hp
    exact ⟨_, h, hp⟩
  · have hline : Json.Blanks ['\n'] := by simp [Json.Blanks, Json.isBlank]
    exact ⟨_, h, s.parse_pretty hline⟩

theorem agree_of_fits (h : s.Fits) :
    Agree (Hex.encode s.encode) s.toJson.pretty s.hash.toHex where
  encodes sources path hold := by
    obtain ⟨text, ht, hp⟩ := parse_of_holds hold
    exact (Command.encode_prints ht).mpr ⟨s, hp, rfl⟩
  decodes sources := Command.decode_prints.mpr ⟨s, NativeScript.decodeHex_encode h, rfl⟩
  hashes sources path hold := by
    obtain ⟨text, ht, hp⟩ := parse_of_holds hold
    exact (Command.hash_prints ht).mpr ⟨s, hp, rfl⟩
  digested := ⟨s.encode, Hex.decode_eq_ok.mpr (Hex.spelled_encode s.encode), rfl⟩

/-- Whatever digits are decoded, and whatever text is encoded, the script is the same after
any of the commands. A text is encoded if and only if it is hashed. -/
theorem commands_compose :
    (∀ (sources : Sources) (digits t : String), (Bytes.ofText digits).length < UInt64.size →
      (Command.decode digits).Prints sources t → ∃ c d, Agree c t d) ∧
    ∀ (sources : Sources) (path j : String), sources.Holds path j →
      (Bytes.ofText j).length < UInt64.size →
      ((∃ c, (Command.encode path).Prints sources c) ↔
        ∃ d, (Command.hash path).Prints sources d) ∧
      ∀ c, (Command.encode path).Prints sources c →
        ∃ t d, Agree c t d ∧ (Command.hash path).Prints sources d := by
  refine ⟨fun sources digits t hl h => ?_, fun sources path j hj hl => ⟨?_, fun c h => ?_⟩⟩
  · obtain ⟨s, hs, rfl⟩ := Command.decode_prints.mp h
    exact ⟨_, _, agree_of_fits (NativeScript.fits_of_decodeHex hl hs)⟩
  · simp [Command.encode_prints hj, Command.hash_prints hj]
  · obtain ⟨s, hs, rfl⟩ := (Command.encode_prints hj).mp h
    exact ⟨_, _, agree_of_fits (NativeScript.fits_of_parse hl hs),
      (Command.hash_prints hj).mpr ⟨s, hs, rfl⟩⟩

/-- A time lock after a blank and the marker, with a byte more than it has to have. -/
def looseDigits : String := " 0082180405"

/-- The same time lock, with a field that is passed over. -/
def looseText : String := "\x7b \"type\":\"after\", \"note\":null, \"slot\":5 \x7d"

def looseSources : Sources :=
  ⟨fun _ => .ok (Bytes.ofText looseText), .ok (Bytes.ofText looseText)⟩

theorem loose_forms_agree :
    ((Bytes.ofText looseDigits).length < UInt64.size ∧
      (Command.decode looseDigits).Prints looseSources (NativeScript.after 5).toJson.pretty ∧
      ∃ c d, Agree c (NativeScript.after 5).toJson.pretty d) ∧
    looseSources.Holds "script.json" looseText ∧
      (Bytes.ofText looseText).length < UInt64.size ∧
      (Command.encode "script.json").Prints looseSources "820405" ∧
      ∃ t d, Agree "820405" t d ∧ (Command.hash "script.json").Prints looseSources d := by
  have hlength : (Bytes.ofText looseDigits).length < UInt64.size ∧
      (Bytes.ofText looseText).length < UInt64.size := by decide
  have hmarked : NativeScript.decodeMarked [0x00, 0x82, 0x18, 0x04, 0x05] = .ok (.after 5) :=
    NativeScript.decode_eq_ok.mpr rfl
  have hdecode : (Command.decode looseDigits).Prints looseSources _ :=
    Command.decode_prints.mpr ⟨_, NativeScript.decodeHex_eq_ok.mpr ⟨_, rfl, hmarked⟩, rfl⟩
  have hholds : looseSources.Holds "script.json" looseText := ite_self _
  have hparse : NativeScript.parse looseText = .ok (.after 5) :=
    NativeScript.ofJson_eq_ok.mpr (.after rfl rfl)
  have hencode : (Command.encode "script.json").Prints looseSources "820405" :=
    (Command.encode_prints hholds).mpr ⟨_, hparse, rfl⟩
  exact ⟨⟨hlength.1, hdecode, commands_compose.1 _ _ _ hlength.1 hdecode⟩, hholds, hlength.2,
    hencode, (commands_compose.2 _ _ _ hholds hlength.2).2 _ hencode⟩

end NativeScripts.Tool
