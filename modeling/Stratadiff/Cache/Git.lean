import Stratadiff.Cache.Model

/-!
# What the review cache reads of a raw diff

How `review_cache.rs` reads the records of a raw diff, and the order of what it reads.
-/

namespace Stratadiff

def cacheParseSimilarity (status : List Char) : Result Nat := do
  let similarity ← Result.ofOption (.invalid "invalid Git similarity") (parseU8 (status.drop 1))
  Result.ensure (similarity ≤ 100) (.invalid "Git similarity exceeds 100%")
  return similarity

def cacheNextPath (path : Bytes) : Result String := do
  Result.ensure (path ≠ []) (.invalid "Git diff path is empty")
  Result.ensure (path.length ≤ 4096) (.invalid "Git diff path exceeds 4096 bytes")
  return encodeBase64 path

def checkCacheHeader (beforeMode afterMode beforeObjectId afterObjectId : Option String) :
    Result Unit := do
  Result.ensure ((beforeObjectId.toList ++ afterObjectId.toList).all isSha1)
    (.invalid "git diff returned a non-SHA-1 object ID")
  Result.ensure ((beforeMode.toList ++ afterMode.toList).all isMode)
    (.invalid "git diff returned an invalid file mode")

/-- The raw diff as `review_cache.rs` reads it. -/
def cacheDiffFormat : RawDiffFormat String where
  nextPath := cacheNextPath
  missingPath := "Git diff record is missing a path"
  checkHeader := checkCacheHeader
  parseSimilarity := cacheParseSimilarity
  recordName := "Git record"
  maxChanges := maxIdentities
  limitMessage _ := "changed identity limit exceeded"

/-- The derived order of identities: field by field, absent before present. -/
def identityBefore (left right : ExactGitChangeIdentity) : Bool :=
  (compare (fileStatusRank left.status) (fileStatusRank right.status)
    |>.then (compare left.similarityPercent right.similarityPercent)
    |>.then (compare left.beforePath right.beforePath)
    |>.then (compare left.afterPath right.afterPath)
    |>.then (compare left.beforeMode right.beforeMode)
    |>.then (compare left.afterMode right.afterMode)
    |>.then (compare left.beforeBlob right.beforeBlob)
    |>.then (compare left.afterBlob right.afterBlob)).isLE

end Stratadiff
