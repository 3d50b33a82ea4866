import Mathlib.Data.List.Infix
import Mathlib.Data.List.Sort
import Mathlib.Logic.Relation

/-!
# Redaction of granted secrets

Both redactions read the content once and cut a secret off the output as soon as the output ends
with it.
-/

namespace McLoving.Logs

open List

/-- The loop behind a byte: removes secrets from the end of the output.  It removes at least one
byte in each round. -/
def stripSuffixes (secrets : List (List UInt8)) : ℕ → List UInt8 → List UInt8
  | 0, output => output
  | rounds + 1, output =>
    match secrets.find? fun secret => secret.isSuffixOf output with
    | none => output
    | some secret => stripSuffixes secrets rounds (output.take (output.length - secret.length))

/-- The output after one more byte. -/
def pushByte (secrets : List (List UInt8)) (output : List UInt8) (byte : UInt8) : List UInt8 :=
  stripSuffixes secrets (output.length + 1) (output ++ [byte])

/-- `redact` of the object store. -/
def redact (content : List UInt8) (redactions : List (List UInt8)) : List UInt8 :=
  content.foldl (pushByte (redactions.filter (· ≠ []))) []

/-- `redact_to_fixed_point` of the controller.  The automaton it builds first is not used; `build`
says for which secrets this fails. -/
def redactToFixedPoint (build : List (List UInt8) → Except String Unit) (content : List UInt8)
    (redactions : List (List UInt8)) : Except String (List UInt8) :=
  match if redactions = [] then .ok () else build redactions with
  | .error error => .error s!"credential redaction set is invalid: {error}"
  | .ok () =>
    .ok (content.foldl (pushByte ((redactions.filter (· ≠ [])).insertionSort
      fun left right => right.length ≤ left.length)) [])

/-! ## The loop -/

/-- No secret occurs in the bytes. -/
def Clean (secrets : List (List UInt8)) (bytes : List UInt8) : Prop :=
  ∀ secret ∈ secrets, secret ≠ [] → ¬ secret <:+: bytes

/-- One occurrence of a secret is cut out. -/
def CutsOut (secrets : List (List UInt8)) (bytes bytes' : List UInt8) : Prop :=
  ∃ front secret back, secret ∈ secrets ∧ secret ≠ [] ∧ bytes = front ++ secret ++ back ∧
    bytes' = front ++ back

/-- Occurrences of secrets are cut out one after the other. -/
def CutsDownTo (secrets : List (List UInt8)) : List UInt8 → List UInt8 → Prop :=
  Relation.ReflTransGen (CutsOut secrets)

section Loop

variable {secrets : List (List UInt8)} {output content : List UInt8} {byte : UInt8}

theorem Clean.of_infix (hclean : Clean secrets content) (hpart : output <:+: content) :
    Clean secrets output :=
  fun secret hmem hne hin => hclean secret hmem hne (hin.trans hpart)

theorem stripSuffixes_of_clean (hsecrets : ∀ secret ∈ secrets, secret ≠ [])
    (hclean : Clean secrets output) (rounds : ℕ) : stripSuffixes secrets rounds output = output := by
  cases rounds with
  | zero => rfl
  | succ =>
    have hnone : secrets.find? (fun secret => secret.isSuffixOf output) = none := by
      refine find?_eq_none.mpr fun secret hmem hsuffix => ?_
      rw [isSuffixOf_iff_suffix] at hsuffix
      exact hclean secret hmem (hsecrets secret hmem) hsuffix.isInfix
    rw [stripSuffixes, hnone]

/-- An infix of bytes with one more at the end lies in front of it, or ends with it. -/
theorem infix_concat {secret : List UInt8} (hin : secret <:+: output ++ [byte]) :
    secret <:+: output ∨ secret <:+ output ++ [byte] := by
  obtain ⟨front, back, heq⟩ := hin
  rcases eq_nil_or_concat back with rfl | ⟨back, last, rfl⟩
  · exact .inr ⟨front, by rw [← heq, append_nil]⟩
  · rw [concat_eq_append, ← append_assoc] at heq
    exact .inl ⟨front, back, (append_inj' heq rfl).1⟩

/-- Behind a byte the output is clean again, and it has lost at most one secret from its end. -/
theorem pushByte_spec (byte : UInt8) (hsecrets : ∀ secret ∈ secrets, secret ≠ [])
    (hclean : Clean secrets output) : Clean secrets (pushByte secrets output byte) ∧
      (pushByte secrets output byte = output ++ [byte] ∨
        ∃ secret ∈ secrets, output ++ [byte] = pushByte secrets output byte ++ secret) := by
  rw [pushByte, stripSuffixes]
  rcases hfind : secrets.find? (fun secret => secret.isSuffixOf (output ++ [byte])) with _ | secret
  · rw [hfind]
    refine ⟨fun secret hmem hne hin => ?_, .inl rfl⟩
    rcases infix_concat hin with hinside | hsuffix
    · exact hclean secret hmem hne hinside
    · exact find?_eq_none.mp hfind secret hmem (isSuffixOf_iff_suffix.mpr hsuffix)
  · have hmem := mem_of_find?_eq_some hfind
    have hfound : secret.isSuffixOf (output ++ [byte]) = true := by
      simpa using find?_some hfind
    obtain ⟨front, heq⟩ := isSuffixOf_iff_suffix.mp hfound
    have htake : (output ++ [byte]).take ((output ++ [byte]).length - secret.length) = front := by
      rw [← heq, length_append, Nat.add_sub_cancel, take_left]
    -- The secret is not empty, so what is left is a part of the output before the byte.
    obtain ⟨init, last, rfl⟩ := eq_nil_or_concat secret |>.resolve_left (hsecrets secret hmem)
    have hfront : front <:+: output := by
      rw [concat_eq_append, ← append_assoc] at heq
      exact ⟨[], init, (append_inj' heq rfl).1⟩
    have hleft := hclean.of_infix hfront
    rw [hfind]
    dsimp only
    rw [htake, stripSuffixes_of_clean hsecrets hleft]
    exact ⟨hleft, .inr ⟨_, hmem, heq.symm⟩⟩

/-- The pass over the content leaves clean bytes, and what it removed are occurrences of secrets. -/
theorem foldl_pushByte_spec (content : List UInt8)
    (hsecrets : ∀ secret ∈ secrets, secret ≠ []) (hclean : Clean secrets output) :
    Clean secrets (content.foldl (pushByte secrets) output) ∧
      CutsDownTo secrets (output ++ content) (content.foldl (pushByte secrets) output) := by
  induction content generalizing output with
  | nil => exact ⟨hclean, by rw [append_nil]; exact .refl⟩
  | cons byte content ih =>
    obtain ⟨hnext, hpushed⟩ := pushByte_spec byte hsecrets hclean
    obtain ⟨hfinal, hcuts⟩ := ih hnext
    refine ⟨hfinal, ?_⟩
    have hsplit : output ++ byte :: content = output ++ [byte] ++ content := by simp
    rw [hsplit, foldl_cons]
    rcases hpushed with hkept | ⟨secret, hmem, hcut⟩
    · rwa [hkept] at hcuts ⊢
    · exact .head ⟨_, secret, content, hmem, hsecrets secret hmem, by rw [hcut], rfl⟩ hcuts

/-- The pass keeps content in which no secret occurs. -/
theorem foldl_pushByte_of_clean (hsecrets : ∀ secret ∈ secrets, secret ≠ [])
    (hclean : Clean secrets (output ++ content)) :
    content.foldl (pushByte secrets) output = output ++ content := by
  induction content generalizing output with
  | nil => rw [foldl_nil, append_nil]
  | cons byte content ih =>
    have hsplit : output ++ byte :: content = output ++ [byte] ++ content := by simp
    rw [hsplit] at hclean ⊢
    have hpushed : pushByte secrets output byte = output ++ [byte] :=
      stripSuffixes_of_clean hsecrets (hclean.of_infix ⟨[], content, rfl⟩) _
    rw [foldl_cons, hpushed, ih hclean]

/-- Secrets in another order, or with empty ones, are clean and cut out alike. -/
theorem foldl_pushByte_redacts (content : List UInt8) {redactions : List (List UInt8)}
    (hsame : ∀ secret, secret ∈ secrets ↔ secret ∈ redactions ∧ secret ≠ []) :
    CutsDownTo redactions content (content.foldl (pushByte secrets) []) ∧
      Clean redactions (content.foldl (pushByte secrets) []) ∧
      (Clean redactions content → content.foldl (pushByte secrets) [] = content) ∧
      (content.foldl (pushByte secrets) []).foldl (pushByte secrets) [] =
        content.foldl (pushByte secrets) [] := by
  have hsecrets : ∀ secret ∈ secrets, secret ≠ [] := fun secret hmem => ((hsame secret).mp hmem).2
  have hstart : Clean secrets [] := fun secret _ hne hin => hne (infix_nil.mp hin)
  obtain ⟨hclean, hcuts⟩ := foldl_pushByte_spec content hsecrets hstart
  refine ⟨?_, ?_, ?_, foldl_pushByte_of_clean hsecrets hclean⟩
  · refine Relation.ReflTransGen.mono ?_ _ _ hcuts
    rintro bytes bytes' ⟨front, secret, back, hmem, hne, hbytes, hbytes'⟩
    exact ⟨front, secret, back, ((hsame secret).mp hmem).1, hne, hbytes, hbytes'⟩
  · exact fun secret hmem hne => hclean secret ((hsame secret).mpr ⟨hmem, hne⟩) hne
  · refine fun hcontent => foldl_pushByte_of_clean hsecrets fun secret hmem hne => ?_
    exact hcontent secret ((hsame secret).mp hmem).1 hne

end Loop

/-- The output of the controller's redaction. -/
theorem redactToFixedPoint_spec {build : List (List UInt8) → Except String Unit}
    {content output : List UInt8} {redactions : List (List UInt8)}
    (hok : redactToFixedPoint build content redactions = .ok output) :
    CutsDownTo redactions content output ∧ Clean redactions output ∧
      (Clean redactions content → output = content) ∧
      redactToFixedPoint build output redactions = .ok output := by
  have hsame : ∀ secret, secret ∈ (redactions.filter (· ≠ [])).insertionSort
      (fun left right => right.length ≤ left.length) ↔ secret ∈ redactions ∧ secret ≠ [] := by
    intro secret
    rw [mem_insertionSort]
    simp
  obtain ⟨hcuts, hclean, hkept, hagain⟩ := foldl_pushByte_redacts content hsame
  unfold redactToFixedPoint at hok ⊢
  rcases hbuild : (if redactions = [] then .ok () else build redactions) with error | ⟨⟩
  · rw [hbuild] at hok
    cases hok
  · rw [hbuild] at hok ⊢
    cases hok
    exact ⟨hcuts, hclean, hkept, congrArg Except.ok hagain⟩

/-- The output of either redaction arises from the content by cutting out occurrences of secrets one
after the other, no secret that is not empty occurs in it, it is the content if none occurs there,
and a second redaction with the same secrets leaves it as it is.  The controller's has an output
unless the automaton is refused. -/
theorem redaction_leaves_no_secret (build : List (List UInt8) → Except String Unit)
    (content : List UInt8) (redactions : List (List UInt8)) :
    (CutsDownTo redactions content (redact content redactions) ∧
      Clean redactions (redact content redactions) ∧
      (Clean redactions content → redact content redactions = content) ∧
      redact (redact content redactions) redactions = redact content redactions) ∧
    ((redactions ≠ [] → build redactions = .ok ()) →
      ∃ output, redactToFixedPoint build content redactions = .ok output) ∧
    ∀ output, redactToFixedPoint build content redactions = .ok output →
      CutsDownTo redactions content output ∧ Clean redactions output ∧
      (Clean redactions content → output = content) ∧
      redactToFixedPoint build output redactions = .ok output := by
  refine ⟨foldl_pushByte_redacts content fun secret => by simp, fun hbuilds => ?_,
    fun output hok => redactToFixedPoint_spec hok⟩
  have hbuild : (if redactions = [] then .ok () else build redactions) = .ok () := by
    split_ifs with hempty
    · rfl
    · exact hbuilds hempty
  rw [redactToFixedPoint, hbuild]
  exact ⟨_, rfl⟩

/-- Of the three bytes the middle one is a secret, and the two around it are one once it is gone. -/
theorem joined_secret_is_removed : redact [97, 98, 99, 100] [[98], [97, 99]] = [100] ∧
      redactToFixedPoint (fun _ => .ok ()) [97, 98, 99, 100] [[98], [97, 99]] = .ok [100] ∧
      Clean [[98], [97, 99]] [100] ∧
      redactToFixedPoint (fun _ => .ok ()) [100] [[98], [97, 99]] = .ok [100] := by
  have hok : redactToFixedPoint (fun _ => .ok ()) [97, 98, 99, 100] [[98], [97, 99]] = .ok [100] := by
    decide
  obtain ⟨-, -, houtputs⟩ :=
    redaction_leaves_no_secret (fun _ => .ok ()) [97, 98, 99, 100] [[98], [97, 99]]
  obtain ⟨-, hclean, -, hagain⟩ := houtputs _ hok
  exact ⟨by decide, hok, hclean, hagain⟩

end McLoving.Logs
