import NacPlatform.Aaa.RadiusServer

namespace NacPlatform.Radius

/-! The hiding of a password between a client and the server, which share a secret. -/

/-- The least padding with NULs to a positive multiple of sixteen. -/
def padPassword (password : List UInt8) : List UInt8 :=
  password++List.replicate (if password.isEmpty then 16 else (16-password.length%16)%16) 0

section

variable (md5 : List UInt8 → Vector UInt8 16)

/-- What the client makes of the blocks: each is combined with the hash of the secret and the
block of ciphertext before it. -/
def encryptBlocks (secret prev plain : List UInt8) : List UInt8 :=
  match plain with
  | [] => []
  | p::ps =>
    let cipher := List.zipWith (· ^^^ ·) ((p::ps).take 16) (md5 (secret++prev)).toList
    cipher++encryptBlocks secret cipher ((p::ps).drop 16)
termination_by plain.length
decreasing_by
  simp only [List.length_drop,List.length_cons]
  omega

def encryptPapPassword (password secret : List UInt8) (authenticator : Vector UInt8 16) :
    List UInt8 :=
  encryptBlocks md5 secret authenticator.toList (padPassword password)

theorem length_padPassword (password : List UInt8) :
    16 ∣ (padPassword password).length ∧ 0<(padPassword password).length := by
  rw [padPassword,List.length_append,List.length_replicate]
  cases password with
  | nil => simp
  | cons b bs =>
    have hlen : (b::bs).length=bs.length+1 := rfl
    rw [if_neg (by simp)]
    omega

/-- The same key bytes, applied twice, cancel. -/
theorem xor_xor_cancel {block key : List UInt8} (h : block.length ≤ key.length) :
    List.zipWith (· ^^^ ·) (List.zipWith (· ^^^ ·) block key) key=block := by
  induction block generalizing key with
  | nil => rfl
  | cons b block ih =>
    match key,h with
    | k::key,h =>
      have hrest : block.length ≤ key.length := by simpa using h
      have hbyte : (b ^^^ k) ^^^ k=b := by rw [UInt8.xor_assoc,UInt8.xor_self,UInt8.xor_zero]
      rw [List.zipWith_cons_cons,List.zipWith_cons_cons,ih hrest,hbyte]

theorem decryptChunks_block {secret prev block rest : List UInt8} (hne : block≠[])
    (hlen : block.length=16 ∨ block.length ≤ 16 ∧ rest=[]) :
    decryptChunks md5 secret prev (block++rest)=
      List.zipWith (· ^^^ ·) block (md5 (secret++prev)).toList++
        decryptChunks md5 secret block rest := by
  have hsplit : (block++rest).take 16=block ∧ (block++rest).drop 16=rest := by
    rcases hlen with hlen | ⟨hlen,rfl⟩
    · rw [← hlen]
      exact ⟨List.take_left,List.drop_left⟩
    · rw [List.append_nil]
      exact ⟨List.take_of_length_le hlen,List.drop_of_length_le hlen⟩
  match block,hne with
  | b::bs,_ =>
    rw [List.cons_append,decryptChunks]
    simp only [← List.cons_append]
    rw [hsplit.1,hsplit.2]

/-- The chaining value is the ciphertext on both sides, so the blocks come back one by one. -/
theorem decryptChunks_encryptBlocks (secret prev plain : List UInt8) :
    decryptChunks md5 secret prev (encryptBlocks md5 secret prev plain)=plain := by
  induction prev, plain using encryptBlocks.induct md5 secret with
  | case1 prev => rw [encryptBlocks,decryptChunks]
  | case2 prev p ps cipher ih =>
    have hkey : (md5 (secret++prev)).toList.length=16 := Vector.length_toList
    have hblock : ((p::ps).take 16).length ≤ 16 := List.length_take_le _ _
    have hcipher : cipher.length=((p::ps).take 16).length := by
      rw [List.length_zipWith,hkey]
      omega
    have hne : cipher≠[] := by
      intro h
      simp [h] at hcipher
    have hlen : cipher.length=16 ∨
        cipher.length ≤ 16 ∧ encryptBlocks md5 secret cipher ((p::ps).drop 16)=[] := by
      by_cases hshort : (p::ps).length<16
      · refine .inr ⟨by omega,?_⟩
        rw [List.drop_of_length_le (by omega),encryptBlocks]
      · refine .inl ?_
        rw [hcipher,List.length_take]
        omega
    have hback : List.zipWith (· ^^^ ·) cipher (md5 (secret++prev)).toList=(p::ps).take 16 :=
      xor_xor_cancel (by omega)
    rw [encryptBlocks,decryptChunks_block md5 hne hlen,hback,ih]
    exact List.take_append_drop 16 (p::ps)

/-- Stripping takes the padding and nothing of a password that does not end in a NUL. -/
theorem strip_padded {password : List UInt8} (h : password.getLast?≠some 0) (n : Nat) :
    ((password++List.replicate n 0).reverse.dropWhile (· == 0)).reverse=password := by
  have hpad : ∀ b ∈ List.replicate n (0 : UInt8), (b == 0)=true := by
    intro b hb
    simp [List.eq_of_mem_replicate hb]
  have hlast : password.reverse.dropWhile (· == 0)=password.reverse := by
    rw [← List.head?_reverse] at h
    cases hr : password.reverse with
    | nil => rfl
    | cons b bs =>
      have hb : b≠0 := by simpa [hr] using h
      rw [List.dropWhile_cons_of_neg (by simpa using hb)]
  rw [List.reverse_append,List.reverse_replicate,List.dropWhile_append_of_pos hpad,hlast,
    List.reverse_reverse]

/-- The server reads what the client hid, whatever the hash is. -/
theorem decryptPapPassword_encrypt {password : List UInt8} (h : password.getLast?≠some 0)
    (secret : List UInt8) (authenticator : Vector UInt8 16) :
    decryptPapPassword md5 (encryptPapPassword md5 password secret authenticator) secret
      authenticator=password := by
  rw [decryptPapPassword,encryptPapPassword,decryptChunks_encryptBlocks]
  exact strip_padded h _

end

/-- A hash that gives the last sixteen bytes it sees, and a password of two blocks. -/
theorem decryptPapPassword_two_blocks :
    let md5 : List UInt8 → Vector UInt8 16 := fun bytes =>
      Vector.ofFn fun i => bytes.reverse.getD i 0
    decryptPapPassword md5 (encryptPapPassword md5 (asBytes "correct horse battery")
      (asBytes "s3cret") (.replicate 16 7)) (asBytes "s3cret") (.replicate 16 7)=
        asBytes "correct horse battery" :=
  decryptPapPassword_encrypt _ (by decide) _ _

end NacPlatform.Radius
