-- The code that sends requests and reads their answers.

namespace Flowscript.Support

/-- The lines of the code for requests. -/
def requestLines : List String := [
  "/**",
  " * HTTP helper functions",
  " */",
  "",
  "/**",
  " * Fetch with JSON defaults and retries; throws on HTTP status >= 400.",
  " */",
  "function makeAuthenticatedRequest(url, options) \x7b",
  "  const requestOptions = Object.assign(\x7b method: 'GET', headers: \x7b\x7d, " ++
    "muteHttpExceptions: true \x7d, options || \x7b\x7d);",
  "  requestOptions.headers = Object.assign(\x7b\x7d, requestOptions.headers);",
  "  requestOptions.headers['User-Agent'] = 'scriptgraph-automation/1.0';",
  "  requestOptions.headers['Accept'] = 'application/json';",
  "",
  "  if (String(requestOptions.method).toUpperCase() !== 'GET' && requestOptions.payload " ++
    "&& typeof requestOptions.payload === 'object') \x7b",
  "    requestOptions.payload = JSON.stringify(requestOptions.payload);",
  "    requestOptions.contentType = 'application/json';",
  "  \x7d",
  "",
  "  return retryWithBackoff(function () \x7b",
  "    const response = UrlFetchApp.fetch(url, requestOptions);",
  "    const code = response.getResponseCode();",
  "    const text = response.getContentText();",
  "    if (code >= 400) \x7b",
  "      throw new Error('HTTP ' + code + ': ' + text);",
  "    \x7d",
  "    return \x7b",
  "      code: code,",
  "      text: text,",
  "      json: safeJsonParse(text, null),",
  "      headers: response.getAllHeaders()",
  "    \x7d;",
  "  \x7d);",
  "\x7d",
  "",
  "function postJson(url, data, headers) \x7b",
  "  return makeAuthenticatedRequest(url, \x7b",
  "    method: 'POST',",
  "    payload: data,",
  "    headers: headers || \x7b\x7d",
  "  \x7d);",
  "\x7d",
  "",
  "function getWithParams(url, params) \x7b",
  "  params = params || \x7b\x7d;",
  "  const query = Object.keys(params).map(function (key) \x7b",
  "    return encodeURIComponent(key) + '=' + encodeURIComponent(params[key]);",
  "  \x7d).join('&');",
  "  return makeAuthenticatedRequest(query ? url + (url.indexOf('?') === -1 ? '?' : '&') " ++
    "+ query : url);",
  "\x7d"]

end Flowscript.Support
