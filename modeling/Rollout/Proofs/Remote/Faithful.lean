import Rollout.Proofs.Remote.Pushed
import Rollout.Proofs.Remote.Quoting
import Rollout.Proofs.Text.Bytes

namespace Rollout

namespace Checksum

structure IsName (path : String) : Prop where
  nonempty : path ≠ ""
  no_null : '\x00' ∉ path.toList
  no_option : path.toList.head? ≠ some '-'

theorem isName_iff {path : String} :
    IsName path ↔ path ≠ "" ∧ '\x00' ∉ path.toList ∧ path.toList.head? ≠ some '-' :=
  ⟨fun h ↦ ⟨h.nonempty, h.no_null, h.no_option⟩, fun h ↦ ⟨h.1, h.2.1, h.2.2⟩⟩

instance (path : String) : Decidable (IsName path) := decidable_of_iff _ isName_iff.symm

/-- What the program for checksums writes for the words of a command on a machine with files. -/
def answer? (files : String → Option (List UInt8)) : List (List Char) → Option String
  | [program, path] =>
    if program = "sha256sum".toList ∧ IsName (String.ofList path) then
      (files (String.ofList path)).map fun content ↦
        line (Sha256.hex content) (String.ofList path)
    else none
  | _ => none

theorem answer?_file {files : String → Option (List UInt8)} {path : String}
    {content : List UInt8} (hname : IsName path) (hfile : files path = some content) :
    answer? files ["sha256sum".toList, path.toList] = some (line (Sha256.hex content) path) := by
  simp [answer?, hname, hfile]

theorem read_line_hex (content : List UInt8) (path : String) :
    read (line (Sha256.hex content) path) = if IsPlain path then .ok (Sha256.hex content)
      else .error (.other ("unexpected sha256sum output: " ++
        Text.trim (line (Sha256.hex content) path))) := by
  rw [read_line (Sha256.isDigest_hex content), Sha256.lower_hex]

end Checksum

namespace Ssh

theorem words?_checksumCommand (path : String) :
    Shell.words? (checksumCommand path).toList = some ["sha256sum".toList, path.toList] := by
  have hprogram : Shell.words? "sha256sum".toList = some ["sha256sum".toList] := by decide
  have hline : (checksumCommand path).toList =
      "sha256sum".toList ++ ' ' :: Shell.quoteChars path.toList := by
    rw [checksumCommand, String.toList_append, Shell.toList_quote]
    rfl
  rw [hline, Shell.words?_blank hprogram, Shell.words?_quoteChars]
  rfl

theorem proceed_checksum_ended (s : Ssh) (t : Transfer) (shown : String) (errors : List UInt8) :
    s.proceed (.checksum t) (.ended ⟨0, Text.toBytes shown, errors⟩) =
      .done (checksumReply t shown) := by
  simp only [proceed, commandReply, if_true, output, Text.ofBytes_toBytes]

/-- What becomes of a copy that is faithful: the other machine is asked for the checksum of just
this file, and what it shows is taken for the digest of the file if and only if the path is written
as it stands. -/
structure Reported (s : Ssh) (t : Transfer) (files : String → Option (List UInt8)) : Prop where
  words_eq : Shell.words? (checksumCommand t.remotePath).toList =
    some ["sha256sum".toList, t.remotePath.toList]
  answer_eq : (Shell.words? (checksumCommand t.remotePath).toList).bind (Checksum.answer? files) =
    some (Checksum.line t.digest t.remotePath)
  read_eq : Checksum.read (Checksum.line t.digest t.remotePath) =
    if Checksum.IsPlain t.remotePath then .ok (Checksum.lower t.digest)
    else .error (.other ("unexpected sha256sum output: " ++
      Text.trim (Checksum.line t.digest t.remotePath)))
  proceed_eq : ∀ errors, s.proceed (.checksum t)
      (.ended ⟨0, Text.toBytes (Checksum.line t.digest t.remotePath), errors⟩) =
    .done (if Checksum.IsPlain t.remotePath then .ok {}
      else .error (.other ("unexpected sha256sum output: " ++
        Text.trim (Checksum.line t.digest t.remotePath))))

/-- A copy that arrived as it was sent is reported as done if and only if its path is plain. -/
theorem reported_of_faithful (s : Ssh) {t : Transfer} {files : String → Option (List UInt8)}
    {content : List UInt8} (hname : Checksum.IsName t.remotePath)
    (hfile : files t.remotePath = some content) (hdigest : t.digest = Sha256.hex content) :
    Reported s t files := by
  refine ⟨words?_checksumCommand t.remotePath, ?_, ?_, fun errors ↦ ?_⟩
  · rw [words?_checksumCommand, Option.bind_some, Checksum.answer?_file hname hfile, hdigest]
  · rw [hdigest]
    exact Checksum.read_line (Sha256.isDigest_hex content) t.remotePath
  · have hread := Checksum.read_line_hex content t.remotePath
    rw [← hdigest] at hread
    rw [proceed_checksum_ended]
    split
    · rename_i hplain
      rw [if_pos hplain] at hread
      rw [checksumReply_of_read hread]
    · rename_i hplain
      rw [if_neg hplain] at hread
      rw [checksumReply_of_unread hread]

def emptyTransfer (remotePath : String) : Transfer :=
  ⟨"oss01", "conf/empty", remotePath, Sha256.hex []⟩

/-- An unusual path that is plain. -/
theorem reported_plain : Checksum.IsName "/srv/it's a \"file\" $HOME" ∧
    Checksum.IsPlain "/srv/it's a \"file\" $HOME" ∧
    Reported {} (emptyTransfer "/srv/it's a \"file\" $HOME") fun _ ↦ some [] :=
  have hname : Checksum.IsName "/srv/it's a \"file\" $HOME" := by decide
  have hplain : Checksum.IsPlain "/srv/it's a \"file\" $HOME" := by decide
  ⟨hname, hplain, reported_of_faithful {} hname rfl rfl⟩

/-- With a backslash in the path, the digest is not read and a faithful copy counts as failed. -/
theorem unread_backslash : Checksum.IsName "/srv/back\\slash" ∧
    (Shell.words? (checksumCommand "/srv/back\\slash").toList).bind
        (Checksum.answer? fun _ ↦ some []) =
      some (Checksum.line (Sha256.hex []) "/srv/back\\slash") ∧
    Checksum.read (Checksum.line (Sha256.hex []) "/srv/back\\slash") ≠
      .ok (Checksum.lower (Sha256.hex [])) ∧
    ∀ errors, proceed {} (.checksum (emptyTransfer "/srv/back\\slash"))
        (.ended ⟨0, Text.toBytes (Checksum.line (Sha256.hex []) "/srv/back\\slash"), errors⟩) ≠
      .done (.ok {}) := by
  have hname : Checksum.IsName "/srv/back\\slash" := by decide
  have hplain : ¬ Checksum.IsPlain "/srv/back\\slash" := by decide
  have hread := Checksum.read_line_hex [] "/srv/back\\slash"
  rw [if_neg hplain] at hread
  refine ⟨hname, ?_, ?_, fun errors h ↦ ?_⟩
  · rw [words?_checksumCommand, Option.bind_some, Checksum.answer?_file hname rfl]
  · rw [hread]
    exact nofun
  · rw [proceed_checksum_ended, checksumReply_of_unread hread] at h
    cases h

end Ssh

end Rollout
