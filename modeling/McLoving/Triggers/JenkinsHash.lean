import Mathlib.Data.Nat.Bitwise
import Mathlib.Data.Nat.Log
import Mathlib.Data.Nat.Prime.Pow
import Mathlib.Tactic.Linarith
import Mathlib.Tactic.Ring

/-!
# The generator of hashed fields

The generator that picks the values of hashed fields follows `java.util.Random`.  Machine integers
are written out: an `i32` that overflows wraps.
-/

namespace McLoving.Cron

open Option

/-- The largest `i32`. -/
def i32Max : ℤ :=
  2 ^ 31 - 1

/-- A number as an `i32`. -/
def wrap32 (value : ℤ) : ℤ :=
  value.bmod (2 ^ 32)

structure JenkinsHash where
  seed : ℕ
  deriving DecidableEq

namespace JenkinsHash

/-- The state after a draw. -/
def advance (hash : JenkinsHash) : JenkinsHash :=
  ⟨(hash.seed * 0x5DEECE66D % 2 ^ 64 + 0xB) % 2 ^ 64 % 2 ^ 48⟩

def nextBits (hash : JenkinsHash) (bits : ℕ) : ℤ × JenkinsHash :=
  (wrap32 (hash.advance.seed >>> (48 - bits) : ℕ), hash.advance)

/-- `u32::is_power_of_two`. -/
def isPowerOfTwo (n : ℕ) : Bool :=
  2 ^ n.log2 = n

/-- The test of `next` on a draw: the sum may wrap. -/
def accepts (n : ℕ) (bits : ℤ) : Bool :=
  0 < wrap32 (wrap32 (bits - bits.tmod n) + n)

/-- The loop of `next`, for so many rounds at most. -/
def drawLoop (n : ℕ) : ℕ → JenkinsHash → Option (ℤ × JenkinsHash)
  | 0, _ => none
  | rounds + 1, hash =>
    let drawn := hash.nextBits 31
    if accepts n drawn.1 then some (drawn.1.tmod n, drawn.2) else drawLoop n rounds drawn.2

/-- `next`, which returns if one of so many draws is accepted. -/
def next (rounds : ℕ) (hash : JenkinsHash) (n : ℕ) : Option (ℤ × JenkinsHash) :=
  if isPowerOfTwo n then
    let drawn := hash.nextBits 31
    some (wrap32 ((n * drawn.1) >>> (31 : ℕ)), drawn.2)
  else drawLoop n rounds hash

end JenkinsHash

/-! ## The generator of Java -/

/-- `java.util.Random.next(bits)`. -/
def javaNext (seed bits : ℕ) : ℤ × ℕ :=
  let seed := (seed * 0x5DEECE66D + 0xB) % 2 ^ 48
  (wrap32 (seed / 2 ^ (48 - bits) : ℕ), seed)

/-- The loop of `java.util.Random.nextInt`, from its current draw. -/
def javaLoop (bound : ℕ) : ℕ → ℤ × ℕ → Option (ℤ × ℕ)
  | 0, _ => none
  | rounds + 1, (u, seed) =>
    let r := u.tmod bound
    if wrap32 (wrap32 (u - r) + (bound - 1 : ℕ)) < 0 then javaLoop bound rounds (javaNext seed 31)
    else some (r, seed)

/-- `java.util.Random.nextInt(bound)`. -/
def javaNextInt (rounds seed bound : ℕ) : Option (ℤ × ℕ) :=
  let drawn := javaNext seed 31
  if bound &&& (bound - 1) = 0 then some (wrap32 ((bound * drawn.1) >>> (31 : ℕ)), drawn.2)
  else javaLoop bound rounds drawn

/-! ## Draws -/

variable {value : ℤ} {n rounds : ℕ} {hash : JenkinsHash} {drawn : ℤ × JenkinsHash}

theorem wrap32_eq (hlower : -2 ^ 31 ≤ value) (hupper : value < 2 ^ 31) : wrap32 value = value :=
  Int.bmod_eq_of_le (by norm_num; omega) (by norm_num; omega)

/-- The draw of thirty-one bits. -/
def draw (seed : ℕ) : ℕ :=
  (seed * 0x5DEECE66D + 0xB) % 2 ^ 48 / 2 ^ 17

theorem draw_lt (seed : ℕ) : draw seed < 2 ^ 31 := by
  unfold draw
  omega

theorem advance_seed (hash : JenkinsHash) :
    hash.advance.seed = (hash.seed * 0x5DEECE66D + 0xB) % 2 ^ 48 := by
  unfold JenkinsHash.advance
  dsimp only
  omega

theorem nextBits_eq (hash : JenkinsHash) :
    hash.nextBits 31 = ((draw hash.seed : ℤ), hash.advance) := by
  have hdraw := draw_lt hash.seed
  unfold JenkinsHash.nextBits
  rw [advance_seed, Nat.shiftRight_eq_div_pow]
  change (wrap32 (draw hash.seed), _) = _
  rw [wrap32_eq (by omega) (by exact_mod_cast hdraw)]

theorem javaNext_eq (hash : JenkinsHash) :
    javaNext hash.seed 31 = ((draw hash.seed : ℤ), hash.advance.seed) := by
  have hdraw := draw_lt hash.seed
  unfold javaNext
  rw [advance_seed]
  change (wrap32 (draw hash.seed), _) = _
  rw [wrap32_eq (by omega) (by exact_mod_cast hdraw)]

theorem isPowerOfTwo_iff (hpos : 0 < n) :
    JenkinsHash.isPowerOfTwo n = true ↔ n &&& (n - 1) = 0 := by
  rw [JenkinsHash.isPowerOfTwo, decide_eq_true_iff]
  constructor
  · intro hpower
    rw [← hpower, Nat.and_two_pow_sub_one_eq_mod, Nat.mod_self]
  · intro hzero
    by_contra hne
    have hle : 2 ^ n.log2 ≤ n := Nat.log2_self_le hpos.ne'
    have hlt : n < 2 ^ (n.log2 + 1) := Nat.lt_log2_self
    have hself := Nat.testBit_of_two_pow_le_and_two_pow_add_one_gt hle hlt
    have hless := Nat.testBit_of_two_pow_le_and_two_pow_add_one_gt
      (show 2 ^ n.log2 ≤ n - 1 by omega) (show n - 1 < 2 ^ (n.log2 + 1) by omega)
    have hand := Nat.testBit_and n (n - 1) n.log2
    rw [hzero, hself, hless] at hand
    simp at hand

/-! ## The rejected tail -/

section Tail

variable {n d : ℕ}

theorem tmod_draw (d n : ℕ) : (d : ℤ).tmod n = (d % n : ℕ) := by
  rw [Int.tmod_eq_emod_of_nonneg (Int.natCast_nonneg d), Int.natCast_mod]

theorem sub_mod_draw (d n : ℕ) : (d : ℤ) - (d : ℤ).tmod n = (d - d % n : ℕ) := by
  rw [tmod_draw, Nat.cast_sub (Nat.mod_le d n)]

theorem wrap32_add {m k : ℕ} (hm : m < 2 ^ 31) (hk : k < 2 ^ 31) :
    wrap32 (wrap32 m + k) = if m + k < 2 ^ 31 then (m + k : ℤ) else m + k - 2 ^ 32 := by
  have hsmall : wrap32 m = m := wrap32_eq (by omega) (by omega)
  rw [hsmall]
  split_ifs with hfits
  · exact wrap32_eq (by omega) (by omega)
  · rw [wrap32, ← Int.sub_bmod_right]
    exact wrap32_eq (by omega) (by omega)

/-- A draw is accepted if the multiple of `n` above it is an `i32`. -/
theorem accepts_iff (hpos : 0 < n) (hd : d < 2 ^ 31) (hn : n < 2 ^ 31) :
    JenkinsHash.accepts n d = true ↔ d - d % n + n < 2 ^ 31 := by
  rw [JenkinsHash.accepts, decide_eq_true_iff, sub_mod_draw, wrap32_add (by omega) hn]
  split_ifs with hfits
  · omega
  · omega

/-- Java rejects a draw if the number before the multiple of `n` above it is not an `int`. -/
theorem javaRejects_iff (hd : d < 2 ^ 31) (hn : n < 2 ^ 31) :
    wrap32 (wrap32 ((d : ℤ) - (d : ℤ).tmod n) + (n - 1 : ℕ)) < 0 ↔
      2 ^ 31 ≤ d - d % n + (n - 1) := by
  rw [sub_mod_draw, wrap32_add (by omega) (by omega)]
  split_ifs with hfits
  · omega
  · omega

/-- A multiple of `n` is `2 ^ 31` for powers of two only. -/
theorem multiple_ne (hpower : JenkinsHash.isPowerOfTwo n = false) : d - d % n + n ≠ 2 ^ 31 := by
  intro hsum
  have hdvd : n ∣ 2 ^ 31 := by
    rw [← hsum]
    exact Nat.dvd_add (Nat.dvd_sub_mod d) dvd_rfl
  obtain ⟨k, -, rfl⟩ := (Nat.dvd_prime_pow Nat.prime_two).mp hdvd
  simp [JenkinsHash.isPowerOfTwo] at hpower

/-- The two tests agree, except on powers of two. -/
theorem accepts_iff_not_javaRejects (hpower : JenkinsHash.isPowerOfTwo n = false) (hpos : 0 < n)
    (hd : d < 2 ^ 31) (hn : n < 2 ^ 31) : JenkinsHash.accepts n d = true ↔
      ¬ wrap32 (wrap32 ((d : ℤ) - (d : ℤ).tmod n) + (n - 1 : ℕ)) < 0 := by
  have hne := multiple_ne hpower (d := d)
  rw [accepts_iff hpos hd hn, javaRejects_iff hd hn]
  omega

end Tail

/-! ## The stream -/

theorem drawLoop_eq_javaLoop (hpower : JenkinsHash.isPowerOfTwo n = false) (hpos : 0 < n)
    (hn : n < 2 ^ 31) (rounds : ℕ) (hash : JenkinsHash) :
    (JenkinsHash.drawLoop n rounds hash).map (fun drawn => (drawn.1, drawn.2.seed)) =
      javaLoop n rounds (javaNext hash.seed 31) := by
  induction rounds generalizing hash with
  | zero => rfl
  | succ _ ih =>
    have hagree := accepts_iff_not_javaRejects hpower hpos (draw_lt hash.seed) hn
    rw [JenkinsHash.drawLoop, nextBits_eq, javaNext_eq, javaLoop]
    dsimp only
    by_cases haccepts : JenkinsHash.accepts n (draw hash.seed) = true
    · rw [if_pos haccepts, if_neg (hagree.mp haccepts)]
      rfl
    · rw [if_neg haccepts, if_pos (not_not.mp fun hnot => haccepts (hagree.mpr hnot)), ih]

/-- A returned value is a remainder. -/
theorem drawLoop_bounds {hash' : JenkinsHash} (hpos : 0 < n)
    (hdrawn : JenkinsHash.drawLoop n rounds hash = some (value, hash')) :
    0 ≤ value ∧ value < n := by
  induction rounds generalizing hash with
  | zero => cases hdrawn
  | succ _ ih =>
    rw [JenkinsHash.drawLoop, nextBits_eq] at hdrawn
    dsimp only at hdrawn
    split_ifs at hdrawn with haccepts
    · obtain ⟨rfl, -⟩ := Prod.mk.inj (Option.some.inj hdrawn)
      rw [tmod_draw]
      have hlt := Nat.mod_lt (draw hash.seed) hpos
      omega
    · exact ih hdrawn

theorem drawLoop_succ (hdrawn : JenkinsHash.drawLoop n rounds hash = some drawn) :
    JenkinsHash.drawLoop n (rounds + 1) hash = some drawn := by
  induction rounds generalizing hash with
  | zero => cases hdrawn
  | succ _ ih =>
    rw [JenkinsHash.drawLoop] at hdrawn ⊢
    split_ifs at hdrawn ⊢ with haccepts
    · exact hdrawn
    · exact ih hdrawn

/-- More rounds return the same draw. -/
theorem drawLoop_mono {rounds' : ℕ} (hdrawn : JenkinsHash.drawLoop n rounds hash = some drawn)
    (hle : rounds ≤ rounds') : JenkinsHash.drawLoop n rounds' hash = some drawn := by
  induction hle with
  | refl => exact hdrawn
  | step _ ih => exact drawLoop_succ ih

/-- What `next` returns does not depend on the rounds. -/
theorem next_unique {rounds' : ℕ} {drawn' : ℤ × JenkinsHash}
    (hdrawn : hash.next rounds n = some drawn) (hdrawn' : hash.next rounds' n = some drawn') :
    drawn = drawn' := by
  unfold JenkinsHash.next at hdrawn hdrawn'
  split_ifs at hdrawn hdrawn' with hpower
  · exact mem_unique hdrawn hdrawn'
  · have hmax := drawLoop_mono hdrawn (le_max_left rounds rounds')
    have hmax' := drawLoop_mono hdrawn' (le_max_right rounds rounds')
    exact mem_unique hmax hmax'

/-- The value for a power of two has the high bits of the draw. -/
theorem scaled_bounds {d : ℕ} (hn : n < 2 ^ 31) (hpos : 0 < n) (hd : d < 2 ^ 31) :
    0 ≤ wrap32 ((n * (d : ℤ)) >>> (31 : ℕ)) ∧ wrap32 ((n * (d : ℤ)) >>> (31 : ℕ)) < n := by
  have hshift : ((n * (d : ℤ)) >>> (31 : ℕ) : ℤ) = ((n * d / 2 ^ 31 : ℕ) : ℤ) := by
    rw [Int.shiftRight_eq_div_pow]
    norm_cast
  have hlt : n * d / 2 ^ 31 < n := by
    rw [Nat.div_lt_iff_lt_mul (by norm_num)]
    exact Nat.mul_lt_mul_of_pos_left hd hpos
  rw [hshift, wrap32_eq (by omega) (by omega)]
  omega

theorem next_bounds {hash' : JenkinsHash} (hpos : 0 < n) (hn : n < 2 ^ 31)
    (hdrawn : hash.next rounds n = some (value, hash')) : 0 ≤ value ∧ value < n := by
  unfold JenkinsHash.next at hdrawn
  split_ifs at hdrawn with hpower
  · rw [nextBits_eq] at hdrawn
    obtain ⟨rfl, -⟩ := Prod.mk.inj (Option.some.inj hdrawn)
    exact scaled_bounds hn hpos (draw_lt hash.seed)
  · exact drawLoop_bounds hpos hdrawn

/-- The value and the state are those of Java. -/
theorem next_eq_javaNextInt (hpos : 0 < n) (hn : n < 2 ^ 31) (hash : JenkinsHash) (rounds : ℕ) :
    (hash.next rounds n).map (fun drawn => (drawn.1, drawn.2.seed)) =
      javaNextInt rounds hash.seed n := by
  unfold JenkinsHash.next javaNextInt
  by_cases hpower : JenkinsHash.isPowerOfTwo n = true
  · rw [if_pos hpower, if_pos ((isPowerOfTwo_iff hpos).mp hpower), nextBits_eq, javaNext_eq,
      map_some]
  · rw [if_neg hpower, if_neg fun hzero => hpower ((isPowerOfTwo_iff hpos).mpr hzero)]
    exact drawLoop_eq_javaLoop (Bool.eq_false_iff.mpr hpower) hpos hn rounds hash

/-- The draws on which a call of `next` evaluates its test. -/
inductive Tested (n : ℕ) : JenkinsHash → ℤ → Prop
  | first (hash : JenkinsHash) : Tested n hash (hash.nextBits 31).1
  | later {hash : JenkinsHash} {bits : ℤ}
      (hrejects : JenkinsHash.accepts n (hash.nextBits 31).1 = false)
      (htested : Tested n hash.advance bits) : Tested n hash bits

/-- A call whose first draw is not in the tail tests no other. -/
theorem tested_eq {bits : ℤ} (haccepts : JenkinsHash.accepts n (draw hash.seed) = true)
    (htested : Tested n hash bits) : bits = draw hash.seed := by
  cases htested with
  | first => rw [nextBits_eq]
  | later hrejects =>
    rw [nextBits_eq, haccepts] at hrejects
    cases hrejects

/-- What is expected of a call of `next`: the value and the state of Java's `nextInt`, a value below
`n`, and a test without overflow. -/
structure FollowsJava (hash : JenkinsHash) (n : ℕ) : Prop where
  java : ∀ rounds, (hash.next rounds n).map (fun drawn => (drawn.1, drawn.2.seed)) =
    javaNextInt rounds hash.seed n
  bounds : ∀ rounds value hash', hash.next rounds n = some (value, hash') → 0 ≤ value ∧ value < n
  exact : JenkinsHash.isPowerOfTwo n = false → ∀ bits, Tested n hash bits →
    bits - bits.tmod n + n ≤ i32Max

/-- `next` reproduces the stream of `java.util.Random` for every state, but the test of a draw in
the rejected tail overflows.  So all is as expected exactly if `n` is a power of two or the first
draw is not in the tail. -/
theorem next_follows_java_iff (hash : JenkinsHash) (n : ℕ) (hpos : 0 < n) (hle : n ≤ 60) :
    FollowsJava hash n ↔ JenkinsHash.isPowerOfTwo n = true ∨
        (hash.seed * 0x5DEECE66D + 0xB) % 2 ^ 48 / 2 ^ 17 / n * n + n < 2 ^ 31 := by
  have hn : n < 2 ^ 31 := by omega
  have hd := draw_lt hash.seed
  have hmultiple : (hash.seed * 0x5DEECE66D + 0xB) % 2 ^ 48 / 2 ^ 17 / n * n =
      draw hash.seed - draw hash.seed % n := by
    change draw hash.seed / n * n = _
    have hdiv := Nat.div_add_mod' (draw hash.seed) n
    omega
  rw [hmultiple]
  have hmod := Nat.mod_le (draw hash.seed) n
  constructor
  · intro hfollows
    by_cases hpower : JenkinsHash.isPowerOfTwo n = true
    · exact .inl hpower
    · right
      have htest := hfollows.exact (Bool.eq_false_iff.mpr hpower) _ (.first hash)
      rw [nextBits_eq, tmod_draw, i32Max] at htest
      dsimp only at htest
      omega
  · intro hfits
    refine ⟨next_eq_javaNextInt hpos hn hash, fun _ _ _ => next_bounds hpos hn,
      fun hpower bits htested => ?_⟩
    have hsum := hfits.resolve_left (by simp [hpower])
    obtain rfl := tested_eq ((accepts_iff hpos hd hn).mpr hsum) htested
    rw [tmod_draw, i32Max]
    omega

/-- From this state the first draw gives 14, and the largest bound meets the condition. -/
theorem next_follows_java_from_one : draw 1 % 60 = 14 ∧ FollowsJava ⟨1⟩ 60 :=
  ⟨by decide, (next_follows_java_iff ⟨1⟩ 60 (by decide) (by decide)).mpr (.inr (by decide))⟩

/-- From this state the first draw is the largest one, and the test for three overflows. -/
theorem test_of_largest_draw_overflows : ¬ FollowsJava ⟨142368275371844⟩ 3 := by
  intro hfollows
  have htest := hfollows.exact (by decide) _ (.first _)
  have hdraw : draw 142368275371844 = 2 ^ 31 - 1 := by decide
  rw [nextBits_eq, tmod_draw, i32Max] at htest
  dsimp only at htest
  rw [hdraw] at htest
  omega

end McLoving.Cron
