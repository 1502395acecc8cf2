import AffectedTests.Text.Basic
/-!
# Characters by name

The characters of one byte by their names in Unicode. The control characters have none of their own there and
go by those of other standards; for some characters there are abbreviations too.
-/

namespace AffectedTests

namespace Path.Quoted

/-- What belongs to each byte, in the order of the bytes. A semicolon ends it, and commas separate names. -/
def characterNames : String := "
  NULL,NUL; START OF HEADING,SOH; START OF TEXT,STX; END OF TEXT,ETX; END OF TRANSMISSION,EOT;
  ENQUIRY,ENQ; ACKNOWLEDGE,ACK; ALERT,BEL; BACKSPACE,BS;
  CHARACTER TABULATION,HORIZONTAL TABULATION,HT,TAB; LINE FEED,NEW LINE,END OF LINE,LF,NL,EOL;
  LINE TABULATION,VERTICAL TABULATION,VT; FORM FEED,FF; CARRIAGE RETURN,CR;
  SHIFT OUT,LOCKING-SHIFT ONE,SO; SHIFT IN,LOCKING-SHIFT ZERO,SI; DATA LINK ESCAPE,DLE;
  DEVICE CONTROL ONE,DC1; DEVICE CONTROL TWO,DC2; DEVICE CONTROL THREE,DC3; DEVICE CONTROL FOUR,DC4;
  NEGATIVE ACKNOWLEDGE,NAK; SYNCHRONOUS IDLE,SYN; END OF TRANSMISSION BLOCK,ETB; CANCEL,CAN;
  END OF MEDIUM,EOM; SUBSTITUTE,SUB; ESCAPE,ESC; INFORMATION SEPARATOR FOUR,FILE SEPARATOR,FS;
  INFORMATION SEPARATOR THREE,GROUP SEPARATOR,GS; INFORMATION SEPARATOR TWO,RECORD SEPARATOR,RS;
  INFORMATION SEPARATOR ONE,UNIT SEPARATOR,US; SPACE,SP; EXCLAMATION MARK; QUOTATION MARK; NUMBER SIGN;
  DOLLAR SIGN; PERCENT SIGN; AMPERSAND; APOSTROPHE; LEFT PARENTHESIS; RIGHT PARENTHESIS; ASTERISK;
  PLUS SIGN; COMMA; HYPHEN-MINUS; FULL STOP; SOLIDUS; DIGIT ZERO; DIGIT ONE; DIGIT TWO; DIGIT THREE;
  DIGIT FOUR; DIGIT FIVE; DIGIT SIX; DIGIT SEVEN; DIGIT EIGHT; DIGIT NINE; COLON; SEMICOLON;
  LESS-THAN SIGN; EQUALS SIGN; GREATER-THAN SIGN; QUESTION MARK; COMMERCIAL AT; LATIN CAPITAL LETTER A;
  LATIN CAPITAL LETTER B; LATIN CAPITAL LETTER C; LATIN CAPITAL LETTER D; LATIN CAPITAL LETTER E;
  LATIN CAPITAL LETTER F; LATIN CAPITAL LETTER G; LATIN CAPITAL LETTER H; LATIN CAPITAL LETTER I;
  LATIN CAPITAL LETTER J; LATIN CAPITAL LETTER K; LATIN CAPITAL LETTER L; LATIN CAPITAL LETTER M;
  LATIN CAPITAL LETTER N; LATIN CAPITAL LETTER O; LATIN CAPITAL LETTER P; LATIN CAPITAL LETTER Q;
  LATIN CAPITAL LETTER R; LATIN CAPITAL LETTER S; LATIN CAPITAL LETTER T; LATIN CAPITAL LETTER U;
  LATIN CAPITAL LETTER V; LATIN CAPITAL LETTER W; LATIN CAPITAL LETTER X; LATIN CAPITAL LETTER Y;
  LATIN CAPITAL LETTER Z; LEFT SQUARE BRACKET; REVERSE SOLIDUS; RIGHT SQUARE BRACKET; CIRCUMFLEX ACCENT;
  LOW LINE; GRAVE ACCENT; LATIN SMALL LETTER A; LATIN SMALL LETTER B; LATIN SMALL LETTER C;
  LATIN SMALL LETTER D; LATIN SMALL LETTER E; LATIN SMALL LETTER F; LATIN SMALL LETTER G;
  LATIN SMALL LETTER H; LATIN SMALL LETTER I; LATIN SMALL LETTER J; LATIN SMALL LETTER K;
  LATIN SMALL LETTER L; LATIN SMALL LETTER M; LATIN SMALL LETTER N; LATIN SMALL LETTER O;
  LATIN SMALL LETTER P; LATIN SMALL LETTER Q; LATIN SMALL LETTER R; LATIN SMALL LETTER S;
  LATIN SMALL LETTER T; LATIN SMALL LETTER U; LATIN SMALL LETTER V; LATIN SMALL LETTER W;
  LATIN SMALL LETTER X; LATIN SMALL LETTER Y; LATIN SMALL LETTER Z; LEFT CURLY BRACKET; VERTICAL LINE;
  RIGHT CURLY BRACKET; TILDE; DELETE,DEL; PADDING CHARACTER,PAD; HIGH OCTET PRESET,HOP;
  BREAK PERMITTED HERE,BPH; NO BREAK HERE,NBH; INDEX,IND; NEXT LINE,NEL; START OF SELECTED AREA,SSA;
  END OF SELECTED AREA,ESA; CHARACTER TABULATION SET,HORIZONTAL TABULATION SET,HTS;
  CHARACTER TABULATION WITH JUSTIFICATION,HORIZONTAL TABULATION WITH JUSTIFICATION,HTJ;
  LINE TABULATION SET,VERTICAL TABULATION SET,VTS; PARTIAL LINE FORWARD,PARTIAL LINE DOWN,PLD;
  PARTIAL LINE BACKWARD,PARTIAL LINE UP,PLU; REVERSE LINE FEED,REVERSE INDEX,RI;
  SINGLE SHIFT TWO,SINGLE-SHIFT-2,SS2; SINGLE SHIFT THREE,SINGLE-SHIFT-3,SS3; DEVICE CONTROL STRING,DCS;
  PRIVATE USE ONE,PRIVATE USE-1,PU1; PRIVATE USE TWO,PRIVATE USE-2,PU2; SET TRANSMIT STATE,STS;
  CANCEL CHARACTER,CCH; MESSAGE WAITING,MW; START OF GUARDED AREA,START OF PROTECTED AREA,SPA;
  END OF GUARDED AREA,END OF PROTECTED AREA,EPA; START OF STRING,SOS;
  SINGLE GRAPHIC CHARACTER INTRODUCER,SGC; SINGLE CHARACTER INTRODUCER,SCI;
  CONTROL SEQUENCE INTRODUCER,CSI; STRING TERMINATOR,ST; OPERATING SYSTEM COMMAND,OSC;
  PRIVACY MESSAGE,PM; APPLICATION PROGRAM COMMAND,APC; NO-BREAK SPACE,NBSP; INVERTED EXCLAMATION MARK;
  CENT SIGN; POUND SIGN; CURRENCY SIGN; YEN SIGN; BROKEN BAR; SECTION SIGN; DIAERESIS; COPYRIGHT SIGN;
  FEMININE ORDINAL INDICATOR; LEFT-POINTING DOUBLE ANGLE QUOTATION MARK; NOT SIGN; SOFT HYPHEN,SHY;
  REGISTERED SIGN; MACRON; DEGREE SIGN; PLUS-MINUS SIGN; SUPERSCRIPT TWO; SUPERSCRIPT THREE;
  ACUTE ACCENT; MICRO SIGN; PILCROW SIGN; MIDDLE DOT; CEDILLA; SUPERSCRIPT ONE;
  MASCULINE ORDINAL INDICATOR; RIGHT-POINTING DOUBLE ANGLE QUOTATION MARK; VULGAR FRACTION ONE QUARTER;
  VULGAR FRACTION ONE HALF; VULGAR FRACTION THREE QUARTERS; INVERTED QUESTION MARK;
  LATIN CAPITAL LETTER A WITH GRAVE; LATIN CAPITAL LETTER A WITH ACUTE;
  LATIN CAPITAL LETTER A WITH CIRCUMFLEX; LATIN CAPITAL LETTER A WITH TILDE;
  LATIN CAPITAL LETTER A WITH DIAERESIS; LATIN CAPITAL LETTER A WITH RING ABOVE;
  LATIN CAPITAL LETTER AE; LATIN CAPITAL LETTER C WITH CEDILLA; LATIN CAPITAL LETTER E WITH GRAVE;
  LATIN CAPITAL LETTER E WITH ACUTE; LATIN CAPITAL LETTER E WITH CIRCUMFLEX;
  LATIN CAPITAL LETTER E WITH DIAERESIS; LATIN CAPITAL LETTER I WITH GRAVE;
  LATIN CAPITAL LETTER I WITH ACUTE; LATIN CAPITAL LETTER I WITH CIRCUMFLEX;
  LATIN CAPITAL LETTER I WITH DIAERESIS; LATIN CAPITAL LETTER ETH; LATIN CAPITAL LETTER N WITH TILDE;
  LATIN CAPITAL LETTER O WITH GRAVE; LATIN CAPITAL LETTER O WITH ACUTE;
  LATIN CAPITAL LETTER O WITH CIRCUMFLEX; LATIN CAPITAL LETTER O WITH TILDE;
  LATIN CAPITAL LETTER O WITH DIAERESIS; MULTIPLICATION SIGN; LATIN CAPITAL LETTER O WITH STROKE;
  LATIN CAPITAL LETTER U WITH GRAVE; LATIN CAPITAL LETTER U WITH ACUTE;
  LATIN CAPITAL LETTER U WITH CIRCUMFLEX; LATIN CAPITAL LETTER U WITH DIAERESIS;
  LATIN CAPITAL LETTER Y WITH ACUTE; LATIN CAPITAL LETTER THORN; LATIN SMALL LETTER SHARP S;
  LATIN SMALL LETTER A WITH GRAVE; LATIN SMALL LETTER A WITH ACUTE;
  LATIN SMALL LETTER A WITH CIRCUMFLEX; LATIN SMALL LETTER A WITH TILDE;
  LATIN SMALL LETTER A WITH DIAERESIS; LATIN SMALL LETTER A WITH RING ABOVE; LATIN SMALL LETTER AE;
  LATIN SMALL LETTER C WITH CEDILLA; LATIN SMALL LETTER E WITH GRAVE; LATIN SMALL LETTER E WITH ACUTE;
  LATIN SMALL LETTER E WITH CIRCUMFLEX; LATIN SMALL LETTER E WITH DIAERESIS;
  LATIN SMALL LETTER I WITH GRAVE; LATIN SMALL LETTER I WITH ACUTE;
  LATIN SMALL LETTER I WITH CIRCUMFLEX; LATIN SMALL LETTER I WITH DIAERESIS; LATIN SMALL LETTER ETH;
  LATIN SMALL LETTER N WITH TILDE; LATIN SMALL LETTER O WITH GRAVE; LATIN SMALL LETTER O WITH ACUTE;
  LATIN SMALL LETTER O WITH CIRCUMFLEX; LATIN SMALL LETTER O WITH TILDE;
  LATIN SMALL LETTER O WITH DIAERESIS; DIVISION SIGN; LATIN SMALL LETTER O WITH STROKE;
  LATIN SMALL LETTER U WITH GRAVE; LATIN SMALL LETTER U WITH ACUTE;
  LATIN SMALL LETTER U WITH CIRCUMFLEX; LATIN SMALL LETTER U WITH DIAERESIS;
  LATIN SMALL LETTER Y WITH ACUTE; LATIN SMALL LETTER THORN; LATIN SMALL LETTER Y WITH DIAERESIS"

/-- The names of each byte. -/
def namesByByte : List (List Text) :=
  let entries := (Text.ofString characterNames).splitOn ';'
  entries.map fun entry => (entry.dropWhile [(' ' : CodePoint), '\n'].contains).splitOn ','

/-- A character that is no small letter, or the capital letter. -/
def capital (c : CodePoint) : CodePoint :=
  if 0x61 ≤ c.val ∧ c.val ≤ 0x7A then CodePoint.ofNat (c.val - 0x20) else c

/-- The number of the character with a name, which may be spelled with small letters. -/
def named? (name : Text) : Option Nat :=
  namesByByte.findIdx? fun names => names.contains (name.map capital)

end Path.Quoted

end AffectedTests
