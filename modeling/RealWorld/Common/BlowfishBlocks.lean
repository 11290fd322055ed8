import RealWorld.Bytes.Feistel
import RealWorld.Common.Blowfish

/-!
# Blocks under `BF_ENCRYPT`

The sixteen rounds are a Feistel network, so encryption under the subkeys from the last to the first
takes a block back.
-/

namespace RealWorld

section
variable {ctx : BFCtx}

/-- What round `n` mixes into the other half. -/
def bfMixed (ctx : BFCtx) (n : Nat) (l : UInt32) : UInt32 :=
  ctx.key (n + 1) ^^^ ((ctx.box 1 (l >>> 16) + ctx.box 0 (l >>> 24)) ^^^ ctx.box 2 (l >>> 8)) + ctx.box 3 l

theorem bfRound_eq (l r : UInt32) (n : Nat) : bfRound ctx l r n = r ^^^ bfMixed ctx n l :=
  UInt32.xor_assoc ..

theorem bfRounds_eq (b : UInt32 × UInt32) (n : Nat) :
    bfRounds ctx b n = Feistel.network (· ^^^ ·) [bfMixed ctx n, bfMixed ctx (n + 1)] b := by
  show (bfRound ctx (bfRound ctx b.1 b.2 n) b.1 (n + 1), bfRound ctx b.1 b.2 n) = _
  rw [bfRound_eq, bfRound_eq]
  rfl

/-- The sixteen rounds between the first subkey and the last. -/
def bfNetwork (ctx : BFCtx) : UInt32 × UInt32 → UInt32 × UInt32 :=
  Feistel.network (· ^^^ ·) ((List.range 16).map (bfMixed ctx))

theorem bfEncrypt_eq (b : UInt32 × UInt32) :
    bfEncrypt ctx b =
      ((bfNetwork ctx (b.1 ^^^ ctx.key 0, b.2)).2 ^^^ ctx.key 17, (bfNetwork ctx (b.1 ^^^ ctx.key 0, b.2)).1) := by
  have rounds : [0, 2, 4, 6, 8, 10, 12, 14].foldl (bfRounds ctx) (b.1 ^^^ ctx.key 0, b.2) =
      bfNetwork ctx (b.1 ^^^ ctx.key 0, b.2) := by
    simp only [List.foldl_cons, List.foldl_nil, bfRounds_eq]
    rfl
  unfold bfEncrypt
  rw [rounds]

/-- The subkeys from the last to the first. -/
def BFCtx.reversed (ctx : BFCtx) : BFCtx := { ctx with p := ctx.p.reverse }

theorem reversed_key (size : ctx.p.size = 18) {i : Nat} (small : i < 18) :
    ctx.reversed.key i = ctx.key (17 - i) := by
  show ctx.p.reverse.getD i 0 = ctx.p.getD (17 - i) 0
  rw [Array.getD_eq_getD_getElem?, Array.getD_eq_getD_getElem?, Array.getElem?_reverse (by omega), size]

theorem reversed_network (size : ctx.p.size = 18) (b : UInt32 × UInt32) :
    bfNetwork ctx.reversed b = Feistel.network (· ^^^ ·) ((List.range 16).map (bfMixed ctx)).reverse b := by
  have mixed : ∀ n < 16, bfMixed ctx.reversed n = bfMixed ctx (15 - n) := by
    intro n small
    funext l
    unfold bfMixed
    rw [reversed_key size (by omega), show 17 - (n + 1) = 15 - n + 1 by omega]
    rfl
  have listed : (List.range 16).map (bfMixed ctx.reversed) = ((List.range 16).map (bfMixed ctx)).reverse := by
    rw [← List.map_reverse, show (List.range 16).reverse = (List.range 16).map (15 - ·) by decide, List.map_map]
    apply List.map_congr_left
    intro n member
    exact mixed n (List.mem_range.mp member)
  unfold bfNetwork
  rw [listed]

theorem xor_cancels (a k : UInt32) : a ^^^ k ^^^ k = a := by
  rw [UInt32.xor_assoc, UInt32.xor_self, UInt32.xor_zero]

theorem bfEncrypt_reversed (size : ctx.p.size = 18) (b : UInt32 × UInt32) :
    bfEncrypt ctx.reversed (bfEncrypt ctx b) = b := by
  have first : ctx.reversed.key 0 = ctx.key 17 := reversed_key size (by decide)
  have last : ctx.reversed.key 17 = ctx.key 0 := reversed_key size (by decide)
  rw [bfEncrypt_eq b, bfEncrypt_eq, first, last, xor_cancels]
  have back : bfNetwork ctx.reversed (bfNetwork ctx (b.1 ^^^ ctx.key 0, b.2)).swap = (b.2, b.1 ^^^ ctx.key 0) := by
    rw [reversed_network size]
    exact Feistel.network_reverse xor_cancels _ _
  show ((bfNetwork ctx.reversed (bfNetwork ctx (b.1 ^^^ ctx.key 0, b.2)).swap).2 ^^^ ctx.key 0,
    (bfNetwork ctx.reversed (bfNetwork ctx (b.1 ^^^ ctx.key 0, b.2)).swap).1) = b
  rw [back]
  show (b.1 ^^^ ctx.key 0 ^^^ ctx.key 0, b.2) = b
  rw [xor_cancels]

theorem reversed_reversed : ctx.reversed.reversed = ctx := by
  unfold BFCtx.reversed
  simp

theorem bfEncrypt_bijective (size : ctx.p.size = 18) : Function.Bijective (bfEncrypt ctx) := by
  apply Function.bijective_iff_has_inverse.mpr
  refine ⟨bfEncrypt ctx.reversed, bfEncrypt_reversed size, ?_⟩
  intro b
  have back := @bfEncrypt_reversed ctx.reversed (Array.size_reverse.trans size) b
  rwa [reversed_reversed] at back

end

/-! ### The sizes the arrays keep -/

/-- The 18 subkeys and the four boxes of 256 words. -/
structure BFCtx.Sized (ctx : BFCtx) : Prop where
  p : ctx.p.size = 18
  s : ctx.s.size = 1024

section
variable (st : BFState) (sized : st.ctx.Sized)
include sized

theorem BFState.storeP_sized (i : Nat) : (st.storeP i).ctx.Sized where
  p := by
    unfold BFState.storeP
    simpa using sized.p
  s := sized.s

theorem BFState.storeS_sized (i : Nat) : (st.storeS i).ctx.Sized where
  p := sized.p
  s := by
    unfold BFState.storeS
    simpa using sized.s

theorem BFState.mixed_sized (a b : UInt32) (i : Nat) : ((st.mix a b).encrypt.storeS i).ctx.Sized :=
  (st.mix a b).encrypt.storeS_sized sized i

end

/-- Both loops of the schedule are folds whose steps keep the sizes. -/
theorem foldl_sized {step : BFState → Nat → BFState} (steps : ∀ st i, st.ctx.Sized → (step st i).ctx.Sized)
    (is : List Nat) {st : BFState} (sized : st.ctx.Sized) : (is.foldl step st).ctx.Sized := by
  induction is generalizing st with
  | nil => exact sized
  | cons i is ih => exact ih (steps st i sized)

theorem bfBody_sized {ctx : BFCtx} (sized : ctx.Sized) : (bfBody ctx).Sized := by
  unfold bfBody
  apply foldl_sized (fun st i kept => st.encrypt.storeS_sized kept (2 * i))
  exact foldl_sized (fun st i kept => st.encrypt.storeP_sized kept (2 * i)) _ sized

theorem xorP_sized {ctx : BFCtx} (sized : ctx.Sized) (words : Nat → UInt32) : (ctx.xorP words).Sized where
  p := Array.size_mapIdx.trans sized.p
  s := sized.s

theorem bfTurn_sized (expanded : Array UInt32) (salt : Nat → UInt32) {ctx : BFCtx} (sized : ctx.Sized) :
    (bfTurn expanded salt ctx).Sized :=
  bfBody_sized (xorP_sized (bfBody_sized (xorP_sized sized _)) _)

theorem length_bfInitStateS : bfInitStateS.length = 1024 := by decide +kernel

theorem bfSetup_sized {initial : Array UInt32} (size : initial.size = 18) (salt : Nat → UInt32) :
    (bfSetup initial salt).Sized := by
  have start : BFCtx.Sized { s := bfInitStateS.toArray, p := initial } := ⟨size, length_bfInitStateS⟩
  have loops : ∀ {stepP stepS : BFState → Nat → BFState},
      (∀ st i, st.ctx.Sized → (stepP st i).ctx.Sized) → (∀ st i, st.ctx.Sized → (stepS st i).ctx.Sized) →
        ((List.range 256).foldl stepS ((List.range 9).foldl stepP
          { ctx := { s := bfInitStateS.toArray, p := initial }, block := (0, 0) })).ctx.Sized :=
    fun stepsP stepsS => foldl_sized stepsS _ (foldl_sized stepsP _ start)
  apply loops
  · intro st i kept
    exact (st.mix _ _).encrypt.storeP_sized kept (2 * i)
  · intro st i kept
    apply BFState.mixed_sized
    exact st.mixed_sized kept (salt 2) (salt 3) (4 * i)

theorem bfSchedule_sized (cost : Nat) (salt : Nat → UInt32) {key : BFKey} (length : key.initial.length = 18) :
    (bfSchedule cost salt key).Sized := by
  unfold bfSchedule
  generalize 2 ^ cost = turns
  induction turns with
  | zero => exact bfSetup_sized length salt
  | succ turns ih =>
    rw [Function.iterate_succ_apply']
    exact bfTurn_sized _ _ ih

theorem length_keyWords (key : List UInt8) (n : Nat) (k : KeyScan) : (keyWords key n k).length = n := by
  induction n generalizing k with
  | zero => rfl
  | succ n ih => rw [keyWords, List.length_cons, ih]

theorem length_initial (key : List UInt8) (flags : UInt32) : (bfSetKey key flags).initial.length = 18 := by
  unfold bfSetKey
  simp [length_keyWords, bfInitStateP]

end RealWorld
