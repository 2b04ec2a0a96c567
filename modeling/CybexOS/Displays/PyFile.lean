/-
Reading back the files that the helper writes.
-/
import CybexOS.Displays.PyValidate
import CybexOS.Json.Printed

namespace CybexOS

namespace Displays

namespace Py

open Json

/-- `read_text`: UTF-8 with universal newlines. -/
def universalNewlines : Text → Text
  | 13 :: 10 :: rest => 10 :: universalNewlines rest
  | 13 :: rest => 10 :: universalNewlines rest
  | c :: rest => c :: universalNewlines rest
  | [] => []

def readText (bytes : Text) : Option Text :=
  (Utf8.decode bytes).map universalNewlines

def MAX_BYTES : Nat := 262144

/-- `read_json_file`, `none` standing for a file that cannot be used. -/
def readJsonFile (file : Option Text) : Option PyValue :=
  (file.bind readText).bind fun text => loads (text.take MAX_BYTES)

theorem universalNewlines_of_printed {s : Text} (h : ∀ c ∈ s, PrintedUnit c) :
    universalNewlines s = s := by
  induction s with
  | nil => rfl
  | cons c s ih =>
      rw [List.forall_mem_cons] at h
      have hc : c ≠ 13 := by
        rcases h.1 with rfl | hle
        · decide
        · omega
      rw [universalNewlines, ih h.2]
      · rintro rest rfl
        exact absurd rfl hc
      · rintro rfl
        exact absurd rfl hc

/-- What a file written by `encode` holds. -/
theorem encode_spec {document : PyValue} (hproper : Proper document) {bytes : Text}
    (h : encode document = some bytes) :
    ∃ text, readText bytes = some text ∧ text.length ≤ MAX_BYTES ∧
      loads text = some document := by
  unfold encode at h
  obtain ⟨text, hdumps, h⟩ := Option.bind_eq_some_iff.mp h
  obtain ⟨written, hwritten, h⟩ := Option.bind_eq_some_iff.mp h
  split at h
  · next hlength =>
    obtain rfl : written = bytes := Option.some.inj h
    have hprinted : ∀ c ∈ text ++ [10], PrintedUnit c := by
      intro c hc
      obtain ⟨term, hterm, rfl⟩ := Option.map_eq_some_iff.mp hdumps
      rcases List.mem_append.mp hc with hc | hc
      · exact print_printedUnit (toTerm_spec hproper term hterm).1 0 c hc
      · exact Or.inl (List.mem_singleton.mp hc)
    refine ⟨text ++ [10], ?_, ?_, loads_dumps hproper hdumps (by decide)⟩
    · rw [readText, Utf8.decode_encode hwritten, Option.map_some,
        universalNewlines_of_printed hprinted]
    · exact (Utf8.length_le_of_encode hwritten).trans hlength
  · simp at h

theorem readJsonFile_encode {document : PyValue} (hproper : Proper document)
    {bytes : Text} (h : encode document = some bytes) :
    readJsonFile (some bytes) = some document := by
  obtain ⟨text, htext, hlength, hloads⟩ := encode_spec hproper h
  rw [readJsonFile, Option.bind_some, htext, Option.bind_some,
    List.take_of_length_le hlength, hloads]

end Py

end Displays

end CybexOS
