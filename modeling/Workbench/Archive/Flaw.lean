import Workbench.Text.Quoted
set_option autoImplicit false

/-!
What can be wrong with the bytes of an archive.
-/
namespace Workbench.Archive

inductive Field where
  | checksum
  | size
  | realSize
  deriving DecidableEq, Repr

def Field.name : Field → Text
  | .checksum => "cksum".toList
  | .size => "size".toList
  | .realSize => "real_size".toList

inductive NumberFlaw where
  | notText (shown : Text)
  | notNumber (shown : Text)
  deriving DecidableEq, Repr

def NumberFlaw.message : NumberFlaw → Text
  | .notText t => "numeric field did not have utf-8 text: ".toList ++ t
  | .notNumber t => "numeric field was not a number: ".toList ++ t

inductive PieceField where
  | offset
  | length
  deriving DecidableEq, Repr

def PieceField.name : PieceField → Text
  | .offset => "offset".toList
  | .length => "length".toList

inductive Flaw where
  | unexpectedEnd
  | gzipHeader
  | gzipFieldTooLong
  | gzipChecksum
  | shortDeflate
  | corruptDeflate
  | partialBlock
  | shortSkip
  | headerChecksum
  | sizeOverflow
  | field (f : Field) (why : NumberFlaw) (path : Text)
  | twoLongNames
  | twoExtensions
  | noMember
  | notSparse
  | pieceField (f : PieceField) (why : NumberFlaw)
  | unalignedPiece
  | disorderedPieces
  | piecesTooLong
  | piecesBeyondEntry
  | shortExtension
  | piecesNotRealSize
  | piecesNotSize
  | content (path : Text) (why : Flaw)
  | notUtf8
  deriving DecidableEq, Repr

def Flaw.message : Flaw → Text
  | .unexpectedEnd => "unexpected end of file".toList
  | .gzipHeader => "invalid gzip header".toList
  | .gzipFieldTooLong => "gzip header field too long".toList
  | .gzipChecksum => "corrupt gzip stream does not have a matching checksum".toList
  | .shortDeflate => "incomplete deflate stream".toList
  | .corruptDeflate => "corrupt deflate stream".toList
  | .partialBlock => "failed to read entire block".toList
  | .shortSkip => "unexpected EOF during skip".toList
  | .headerChecksum => "archive header checksum mismatch".toList
  | .sizeOverflow => "size overflow".toList
  | .field f why path =>
    why.message ++ " when getting ".toList ++ f.name ++ " for ".toList ++ path
  | .twoLongNames => "two long name entries describing the same member".toList
  | .twoExtensions => "two pax extensions entries describing the same member".toList
  | .noMember => "members found describing a future member but no future member found".toList
  | .notSparse => "sparse entry type listed but not GNU header".toList
  | .pieceField f why =>
    why.message ++ " when getting ".toList ++ f.name ++ " from sparse header".toList
  | .unalignedPiece => "previous block in sparse file was not aligned to 512-byte boundary".toList
  | .disorderedPieces => "out of order or overlapping sparse blocks".toList
  | .piecesTooLong => "more bytes listed in sparse file than u64 can hold".toList
  | .piecesBeyondEntry => "sparse file consumed more data than the header listed".toList
  | .shortExtension => "failed to read extension".toList
  | .piecesNotRealSize => "mismatch in sparse file chunks and size in header".toList
  | .piecesNotSize => "mismatch in sparse file chunks and entry size in header".toList
  | .content path why => path ++ ": ".toList ++ why.message
  | .notUtf8 => "stream did not contain valid UTF-8".toList

end Workbench.Archive
