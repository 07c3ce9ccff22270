import Spaceshuttle.Kernel.PortIntent
import Spaceshuttle.Kernel.Voorproever
import Spaceshuttle.Lib.Utf8

/-!
# Intents that Kernel A knows

The port multiplexer makes up intents from a table of ports and from the traffic; Kernel A has a list
of its own of the intents it knows. The intent `http:request`, the default of seven ports, is missing
there.
-/

namespace Spaceshuttle.Kernel

open Voorproever (isKnownIntent knownIntents)

/-! ## Known intents -/

theorem startsWith_append {text start : String} (h : startsWith text start = true) (rest : String) :
    startsWith (text ++ rest) start = true := by
  unfold startsWith at *
  rw [List.isPrefixOf_iff_prefix] at *
  rw [String.toList_append]
  exact h.trans (List.prefix_append _ _)

/-- Whatever is added to a known intent, it stays known. -/
theorem isKnownIntent_append {intent : String} (h : isKnownIntent intent = true) (rest : String) :
    isKnownIntent (intent ++ rest) = true := by
  unfold Voorproever.isKnownIntent at *
  rw [List.any_eq_true] at *
  obtain ⟨known, hmem, hstart⟩ := h
  exact ⟨known, hmem, startsWith_append hstart rest⟩

/-- Of the defaults of the mapped ports one is not known. -/
theorem defaultIntent_known_iff {port : UInt16} {entry : PortIntent}
    (h : defaultPortMap port = some entry) :
    isKnownIntent entry.defaultIntent = true ↔ entry.defaultIntent ≠ "http:request" := by
  have hmem := List.mem_of_find?_eq_some h
  revert hmem
  generalize entry = e
  revert e
  decide

/-! ## Requests -/

/-- The HTTP methods that `infer_intent` looks for. -/
def httpMethods : List String := ["GET", "POST", "PUT", "DELETE", "PATCH", "HEAD", "OPTIONS"]

theorem httpIntent_known {method : String} (hmethod : method ∈ httpMethods) (path : List Char) :
    isKnownIntent (httpIntent method.toList path) = true := by
  have hplain : isKnownIntent ("http:" ++ String.ofList (method.toList.map Char.toLower)) = true := by
    revert hmethod
    revert method
    decide
  unfold httpIntent
  dsimp only
  split_ifs
  · exact isKnownIntent_append (by decide) _
  · exact isKnownIntent_append (by decide) _
  · decide
  · decide
  · decide
  · exact isKnownIntent_append (isKnownIntent_append hplain _) _

/-- A request begins with its method and a space. -/
theorem words_of_http {port : UInt16} {bytes : List UInt8} (h : detect port bytes = .http) :
    ∃ method ∈ httpMethods, ∃ words,
      Text.splitWhitespace (Text.fromUtf8Lossy (bytes.take 2048)) = method.toList :: words := by
  have hany : ["GET ", "POST ", "PUT ", "DELETE ", "PATCH ", "HEAD ", "OPTIONS "].any
      (bytesStartWith bytes) = true := by
    unfold detect at h
    split_ifs at h
    assumption
  obtain ⟨start, hmem, hstart⟩ := List.any_eq_true.mp hany
  have hmethod : ∃ method ∈ httpMethods, ascii start = Text.encode (method.toList ++ [' ']) ∧
      method.toList ≠ [] ∧ method.toList.all (fun c => !Text.isWhitespace c) = true ∧
      (ascii start).length ≤ 2048 := by
    clear hstart hany h
    revert start
    decide
  obtain ⟨method, hmethod, hascii, hne, hword, hsize⟩ := hmethod
  obtain ⟨rest, rfl⟩ := List.isPrefixOf_iff_prefix.mp hstart
  refine ⟨method, hmethod,
    Text.splitWhitespace (Text.fromUtf8Lossy (rest.take (2048 - (ascii start).length))), ?_⟩
  rw [List.take_append, List.take_of_length_le hsize, hascii, Text.fromUtf8Lossy_encode_append,
    List.append_assoc]
  refine Text.splitWhitespace_append hne (fun c hc => ?_) (by decide)
  have hplain := List.all_eq_true.mp hword c hc
  rwa [Bool.not_eq_true'] at hplain

/-! ## Routing -/

section Routing

variable {port : UInt16} {bytes : List UInt8} {portMap : PortMap} {inferred : InferredIntent}

/-- Whatever protocol is recognised, its intent is known. -/
theorem known_of_detected (h : inferIntent port bytes portMap = some inferred)
    (hdetect : detect port bytes ≠ .unknown) : isKnownIntent inferred.intent = true := by
  unfold inferIntent at h
  cases hprotocol : detect port bytes with
  | ssh | redis =>
    rw [hprotocol] at h
    obtain ⟨preview, -, h⟩ := Option.bind_eq_some_iff.mp h
    obtain rfl := Option.some.inj h
    dsimp only
    decide
  | http =>
    rw [hprotocol] at h
    obtain ⟨method, hmethod, words, hwords⟩ := words_of_http hprotocol
    obtain ⟨userAgent, -, h⟩ := Option.bind_eq_some_iff.mp h
    obtain ⟨preview, -, h⟩ := Option.bind_eq_some_iff.mp h
    obtain rfl := Option.some.inj h
    dsimp only
    rw [hwords]
    exact httpIntent_known hmethod _
  | tls =>
    rw [hprotocol] at h
    obtain ⟨sni, -, h⟩ := Option.bind_eq_some_iff.mp h
    obtain ⟨version, -, h⟩ := Option.bind_eq_some_iff.mp h
    obtain rfl := Option.some.inj h
    dsimp only
    decide
  | postgresql | mysql | dns =>
    rw [hprotocol] at h
    obtain rfl := Option.some.inj h
    dsimp only
    decide
  | unknown => exact absurd hprotocol hdetect

theorem intent_of_unknown (portMap : UInt16 → Option PortIntent)
    (hdetect : detect port bytes = .unknown) :
    ∃ inferred, inferIntent port bytes portMap = some inferred ∧
      inferred.intent = ((portMap port).map PortIntent.defaultIntent).getD "unknown:raw" := by
  unfold inferIntent
  rw [hdetect]
  exact ⟨_, rfl, rfl⟩

end Routing

/-- On a mapped port, an intent that `infer_intent` returns is known to Kernel A if and only if a
protocol was recognised or the default of the port is not `http:request`. On a port that is not
mapped, traffic of no known protocol gets an intent that is not known. -/
theorem mapped_intent_known_iff (port : UInt16) (bytes : List UInt8) :
    (∀ entry inferred, defaultPortMap port = some entry →
      inferIntent port bytes defaultPortMap = some inferred →
        (isKnownIntent inferred.intent = true ↔
          detect port bytes ≠ .unknown ∨ entry.defaultIntent ≠ "http:request")) ∧
    (defaultPortMap port = none → detect port bytes = .unknown →
      ∃ inferred, inferIntent port bytes defaultPortMap = some inferred ∧
        isKnownIntent inferred.intent = false) := by
  constructor
  · intro entry inferred hentry hinferred
    by_cases hdetect : detect port bytes = .unknown
    · obtain ⟨inferred', hinferred', hintent⟩ := intent_of_unknown defaultPortMap hdetect
      obtain rfl := Option.some.inj (hinferred.symm.trans hinferred')
      rw [hintent, hentry, Option.map_some, Option.getD_some, defaultIntent_known_iff hentry]
      simp [hdetect]
    · exact iff_of_true (known_of_detected hinferred hdetect) (.inl hdetect)
  · intro hport hdetect
    obtain ⟨inferred, hinferred, hintent⟩ := intent_of_unknown defaultPortMap hdetect
    refine ⟨inferred, hinferred, ?_⟩
    rw [hintent, hport]
    decide

/-- Two bytes of no known protocol on the port of SSH, and on a port that is not mapped. -/
theorem mapped_intent_known_iff_ssh :
    (∃ inferred, inferIntent 22 [1, 2] defaultPortMap = some inferred ∧
      isKnownIntent inferred.intent = true) ∧
    ∃ inferred, inferIntent 9999 [1, 2] defaultPortMap = some inferred ∧
      isKnownIntent inferred.intent = false := by
  have hdetect : detect 22 [1, 2] = .unknown := by decide
  obtain ⟨inferred, hinferred, -⟩ := intent_of_unknown defaultPortMap hdetect
  refine ⟨⟨inferred, hinferred, ?_⟩, ?_⟩
  · exact ((mapped_intent_known_iff 22 [1, 2]).1 ⟨22, "ssh", "shell:command"⟩ inferred (by decide)
      hinferred).mpr (.inr (by decide))
  · exact (mapped_intent_known_iff 9999 [1, 2]).2 (by decide) (by decide)

/-- The same two bytes on the port of HTTP are taken for a request, which is not known. -/
theorem http_request_unknown :
    defaultPortMap 80 = some ⟨80, "http", "http:request"⟩ ∧
      ∃ inferred, inferIntent 80 [1, 2] defaultPortMap = some inferred ∧
        isKnownIntent inferred.intent = false := by
  have hdetect : detect 80 [1, 2] = .unknown := by decide
  obtain ⟨inferred, hinferred, hintent⟩ := intent_of_unknown defaultPortMap hdetect
  refine ⟨by decide, inferred, hinferred, ?_⟩
  rw [hintent]
  decide

end Spaceshuttle.Kernel
