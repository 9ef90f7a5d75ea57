/- The key that tells whether a stored index still fits its repository. -/
import SourceAtlas.Digest.Sha256
import SourceAtlas.Scan

namespace SourceAtlas.Signature

/-- The digest of a file's bytes; empty when the file cannot be read. -/
def digestOf (disk : Disk) (root path : String) : String :=
  match disk.read (Disk.below root path) with
  | .ok bytes => Digest.ofBytes bytes
  | .error _ => ""

/-- The source files of a scan with their digests. -/
def digests (disk : Disk) (root : String) (scan : ScanResult) : List (String × String) :=
  scan.sourceFiles.map fun (path, _) => (path, digestOf disk root path)

/-- The commit, the counts of files, bytes and sources, and the extensions with their counts. -/
def fingerprint (commit : Option String) (scan : ScanResult) : String :=
  Text.join "|"
    [commit.getD "", toString scan.totalFiles, toString scan.totalBytes,
     toString scan.sources.length,
     Text.join "," (scan.extensionCounts.toList.map fun (extension, count) =>
       extension ++ "=" ++ toString count)]

/-- The text that stands for the state of a repository. -/
def payload (disk : Disk) (root : String) (commit : Option String) (scan : ScanResult)
    (mode : SignatureMode) :
    String :=
  match mode with
  | .fingerprint => fingerprint commit scan
  | .content =>
    Text.join "" (fingerprint commit scan ::
      (digests disk root scan).map fun (path, digest) => "|" ++ path ++ ":" ++ digest)

/-- The signature of a scan: the digest of its payload. -/
def ofScan (disk : Disk) (root : String) (commit : Option String) (scan : ScanResult)
    (mode : SignatureMode) :
    String :=
  Digest.ofText (payload disk root commit scan mode)

end SourceAtlas.Signature
